import Sentinel.Agent.Bookkeeping
import Sentinel.Brokers.Paper

/-!
# When the two books drift apart

The paper broker nets, so on it the agent's own book agrees with the venue's in
every run that keeps the books together.  A partial take and an order that
turns out to be filled after all do not.
-/

namespace Sentinel

/-! ## The paper broker nets -/

namespace Paper

def Keyed (v : Venue) : Prop :=
  ∀ symbol p, v.positions.get? symbol = some p → p.instrument = symbol

abbrev KeyedVenue : Type := {v : Venue // Keyed v}

def held (v : KeyedVenue) : Holdings := fun symbol =>
  (v.1.positions.get? symbol).map fun p => (p.side, p.lots)

variable {v : Venue}

theorem Keyed.set (h : Keyed v) {symbol : String} {p : Position}
    (hp : p.instrument = symbol) : Keyed { v with positions := v.positions.set symbol p } := by
  intro other q hq
  by_cases hother : other = symbol
  · subst hother
    rw [Dict.get?_set_self] at hq
    cases hq
    exact hp
  · rw [Dict.get?_set_of_ne _ hother] at hq
    exact h other q hq

theorem Keyed.erase (h : Keyed v) (symbol : String) :
    Keyed { v with positions := v.positions.erase symbol } := by
  intro other q hq
  rw [Dict.get?_erase] at hq
  split_ifs at hq
  exact h other q hq

variable (instruments : Dict String Instrument)

theorem keyed_modifyPosition (h : Keyed v) (symbol : String) (stop : Dec) :
    Keyed (modifyPosition instruments v symbol stop).2 := by
  rw [modifyPosition]
  split
  · exact h
  · rename_i p hp
    split
    · exact h
    · simp only
      split
      · exact h
      · exact h.set (h symbol p hp)

theorem keyed_closePosition (h : Keyed v) (symbol : String) (lots : Option Dec) :
    Keyed (closePosition instruments v symbol lots).2 := by
  rw [closePosition]
  split
  · exact h
  · rename_i p hp
    split_ifs
    · exact h
    · split
      · exact h
      · simp only
        split_ifs
        · exact h
        · exact h.erase symbol
        · exact h.set (h symbol p hp)

theorem keyed_applyFill (h : Keyed v) (nowNs : ℤ) (intent : OrderIntent)
    (fill : Fill) : Keyed (applyFill nowNs v intent fill) := by
  rw [applyFill]
  simp only
  split
  · exact h.set rfl
  · rename_i p hp
    have hself := h intent.instrument p hp
    split_ifs
    · exact h.set hself
    · exact (h.erase _).set rfl
    · exact (h.set (p := realise p _) hself).set rfl
    · exact h.erase _
    · exact h.set hself

def keyedBroker : ManageVenue KeyedVenue where
  instruments := instruments
  modifyPosition v symbol stop :=
    ((modifyPosition instruments v.1 symbol stop).1,
      ⟨_, keyed_modifyPosition instruments v.2 symbol stop⟩)
  closePosition v symbol lots :=
    ((closePosition instruments v.1 symbol lots).1,
      ⟨_, keyed_closePosition instruments v.2 symbol lots⟩)
  positions v := .ok v.1.positions.values

/-- The broker as the reconciler calls it; `account` is what `account()`
returns. -/
def keyedBooks (account : AccountState) : ReconcileVenue KeyedVenue where
  book v := .ok { account, positions := v.1.positions.values }
  instrument _ symbol :=
    match instruments.get? symbol with
    | none => .error symbol
    | some inst => .ok inst
  quote v symbol :=
    match v.1.quotes.get? symbol with
    | none => .error ("no quote for " ++ symbol)
    | some quote => .ok quote
  modifyPosition := (keyedBroker instruments).modifyPosition

/-- `_apply_fill` over a keyed book. -/
def execute (nowNs : ℤ) (v : KeyedVenue) (intent : OrderIntent) (fill : Fill) : KeyedVenue :=
  ⟨_, keyed_applyFill v.2 nowNs intent fill⟩

theorem shows_values (v : KeyedVenue) : Shows (held v) v.1.positions.values where
  sound := by
    intro p hp
    obtain ⟨symbol, hget⟩ := (Dict.mem_values_iff _ _).1 hp
    rw [v.2 symbol p hget]
    simp [held, hget]
  complete := by
    intro symbol hheld
    have hsome : v.1.positions.get? symbol ≠ none := fun hnone => hheld (by simp [held, hnone])
    obtain ⟨p, hget⟩ := Option.ne_none_iff_exists'.1 hsome
    rw [← v.2 symbol p hget]
    exact List.mem_map_of_mem ((Dict.mem_values_iff _ _).2 ⟨symbol, hget⟩)

theorem map_get?_set (d : Dict String Position) (symbol : String) (p : Position) :
    (fun other => ((d.set symbol p).get? other).map fun q => (q.side, q.lots)) =
      Function.update (fun other => (d.get? other).map fun q => (q.side, q.lots)) symbol
        (some (p.side, p.lots)) := by
  funext other
  by_cases hother : other = symbol
  · subst hother
    simp
  · simp [Dict.get?_set_of_ne _ hother, Function.update_of_ne hother]

theorem map_get?_erase (d : Dict String Position) (symbol : String) :
    (fun other => ((d.erase symbol).get? other).map fun q => (q.side, q.lots)) =
      Function.update (fun other => (d.get? other).map fun q => (q.side, q.lots)) symbol none := by
  funext other
  by_cases hother : other = symbol
  · subst hother
    simp
  · simp [Dict.get?_erase_of_ne _ hother, Function.update_of_ne hother]

theorem held_modifyPosition (v : KeyedVenue) (symbol : String) (stop : Dec) :
    held ((keyedBroker instruments).modifyPosition v symbol stop).2 = held v := by
  unfold held keyedBroker modifyPosition
  simp only
  split
  · rfl
  · rename_i p hp
    split
    · rfl
    · split
      · rfl
      · rw [map_get?_set]
        exact Function.update_eq_self_iff.2 (by simp [hp])

theorem closePosition_cases (v : Venue) (symbol : String) (lots : Option Dec) :
    (closePosition instruments v symbol lots).2 = v ∧
        (∀ result, (closePosition instruments v symbol lots).1 = .ok result →
          result.state = .rejected) ∨
      ∃ p closed, v.positions.get? symbol = some p ∧ (lots = none → closed = p.lots) ∧
        closePosition instruments v symbol lots =
          (.ok { state := .filled },
            { v with
              positions :=
                if (realise p closed).lots ≤ 0 then v.positions.erase symbol
                else v.positions.set symbol (realise p closed) }) := by
  rw [closePosition]
  cases hp : v.positions.get? symbol with
  | none => exact .inl ⟨rfl, fun result h => by cases h; rfl⟩
  | some p =>
      simp only
      by_cases hquote : (v.quotes.get? symbol).isNone = true
      · rw [if_pos hquote]
        exact .inl ⟨rfl, fun result h => by cases h; rfl⟩
      · rw [if_neg hquote]
        cases hinst : instruments.get? symbol with
        | none => exact .inl ⟨rfl, fun result h => by cases h⟩
        | some inst =>
            simp only
            by_cases hsize : (lots.map fun l => inst.roundLotsDown (min l p.lots)).getD p.lots ≤ 0
            · rw [if_pos hsize]
              exact .inl ⟨rfl, fun result h => by cases h; rfl⟩
            · rw [if_neg hsize]
              refine .inr ⟨p, _, rfl, ?_, rfl⟩
              rintro rfl
              rfl

theorem netting (account : AccountState) (nowNs : ℤ) :
    Netting (keyedBroker instruments) (keyedBooks instruments account) (execute nowNs) held where
  positions v book hbook := by
    cases hbook
    exact shows_values v
  book v book hbook := by
    cases hbook
    exact shows_values v
  modified := held_modifyPosition instruments
  repaired := held_modifyPosition instruments
  refused := by
    intro v symbol lots result v' hcall hfilled _
    simp only [keyedBroker, Prod.mk.injEq] at hcall
    obtain ⟨hanswer, rfl⟩ := hcall
    rcases closePosition_cases instruments v.1 symbol lots with ⟨hsame, -⟩ | ⟨p, closed, -, -, hrun⟩
    · unfold held
      simp only [hsame]
    · rw [hrun] at hanswer
      cases hanswer
      exact absurd rfl hfilled
  closed := by
    intro v symbol result v' hcall hfilled
    simp only [keyedBroker, Prod.mk.injEq] at hcall
    obtain ⟨hanswer, rfl⟩ := hcall
    rcases closePosition_cases instruments v.1 symbol none with
      ⟨-, hrejected⟩ | ⟨p, closed, hp, hwhole, hrun⟩
    · rw [hrejected result hanswer] at hfilled
      cases hfilled
    · have hgone : (realise p closed).lots ≤ 0 := by
        rw [hwhole rfl]
        simp [realise]
      unfold held
      simp only [hrun, if_pos hgone]
      exact map_get?_erase _ _
  opened := by
    intro v intent fill _ hflat
    have hnone : v.1.positions.get? intent.instrument = none := by simpa [held] using hflat
    unfold held execute applyFill
    simp only [hnone]
    exact map_get?_set _ _ _
  added := by
    intro v intent fill lots _ hheld
    obtain ⟨p, hp, hpair⟩ := Option.map_eq_some_iff.1 hheld
    rw [Prod.mk.injEq] at hpair
    obtain ⟨hside, rfl⟩ := hpair
    unfold held execute applyFill
    simp only [hp, if_pos hside]
    rw [map_get?_set]
    simp [addedTo, hside]

end Paper

/-! ## Reconciling the own book -/

section Run

variable {σ : Type} {broker : ManageVenue σ} {books : ReconcileVenue σ}
  {execute : σ → OrderIntent → Fill → σ} {held : σ → Holdings}

/-- From a flat venue, in a run that keeps the books together, every
reconciliation of the agent's own book finds no orphan, no phantom, and no
drift of a side or a size. -/
theorem localBook_reconciles (hnet : Netting broker books execute held) {venue : σ}
    (hflat : held venue = fun _ => none) {moves : List BookMove}
    (hmoves : Along (BookMove.step broker books execute) (BookKept broker held) ⟨{}, venue⟩ moves) :
    let d := moves.foldl (BookMove.step broker books execute) ⟨{}, venue⟩
    ∀ options unresolved after,
      reconcile books options d.agent.localBook unresolved d.venue = .ok after →
        after.report.mismatches = [] := by
  intro d options unresolved after hreconcile
  have hmirrors : Mirrors held d := by
    refine Along.invariant (I := Mirrors held) (fun e m he hm => Mirrors.step hnet he hm) ?_ hmoves
    exact hflat.symm
  cases hbook : books.book d.venue with
  | error error =>
      rw [reconcile] at hreconcile
      rw [hbook] at hreconcile
      cases hreconcile
      rfl
  | ok book =>
      rw [(reconcile_spec hbook hreconcile).mismatches]
      refine bookMismatches_of_sameBook fun symbol => ?_
      rw [Agent.byInstrument_localBook, (hnet.book d.venue book hbook).byInstrument, hmirrors]

end Run

/-! ## One position on the paper broker -/

def euroOnly : Dict String Instrument := .ofEntries [("EUR_USD", euro)]

def flatPaper (bid : Dec) : Paper.KeyedVenue :=
  ⟨{ positions := .empty
     quotes := .ofEntries
       [("EUR_USD", { instrument := "EUR_USD", bid, ask := bid + 1 / 10000 })] },
    by intro symbol p hget; cases hget⟩

def paperBooks : ReconcileVenue Paper.KeyedVenue :=
  Paper.keyedBooks euroOnly
    { accountId := "PAPER", currency := "USD", balance := 50000, equity := 50000 }

def paperRun (bid : Dec) (moves : List BookMove) : Desk Paper.KeyedVenue :=
  moves.foldl (BookMove.step (Paper.keyedBroker euroOnly) paperBooks (Paper.execute 0))
    ⟨{}, flatPaper bid⟩

/-- The order for one lot is recorded as `order`; the venue has executed some
fills of it. -/
def enterLong (order : Order) (executed : List Fill) : BookMove :=
  .entry { nowNs := 0, instruments := euroOnly, conversion := fun _ => some 1 } longIntent order
    executed

def manageAt (bid : Dec) : BookMove :=
  .manage {}
    { nowNs := 0
      nyOffset := fun _ => -14400
      quote := fun _ => some { instrument := "EUR_USD", bid, ask := bid + 1 / 10000 }
      conversion := fun _ => some 1
      dayPnl := 0
      dayPnlPct := 0
      atr := fun _ => none
      costModel := fun _ => none }
    (longOrder.fills.map fun fill => Paper.opened 0 longIntent fill fill.lots)

def findings (d : Desk Paper.KeyedVenue) : List (MismatchKind × String) :=
  match reconcile paperBooks {} d.agent.localBook [] d.venue with
  | .error _ => []
  | .ok after => after.report.mismatches.map fun m => (m.kind, m.instrument)

/-- After a filled entry the books agree. -/
theorem localBook_reconciles_entry :
    let d := paperRun (11 / 10) [enterLong longOrder longOrder.fills, .read]
    d.agent.localBook.map (fun p => (p.instrument, p.lots)) = [("EUR_USD", 1)] ∧
      ∀ options unresolved after,
        reconcile paperBooks options d.agent.localBook unresolved d.venue = .ok after →
          after.report.mismatches = [] := by
  have hmoves : Along
      (BookMove.step (Paper.keyedBroker euroOnly) paperBooks (Paper.execute 0))
      (BookKept (Paper.keyedBroker euroOnly) Paper.held) ⟨{}, flatPaper (11 / 10)⟩
      [enterLong longOrder longOrder.fills, .read] := by
    refine ⟨?_, trivial, trivial⟩
    simp only [BookKept, enterLong]
    rw [if_neg (by decide), if_pos (by decide +kernel)]
    exact ⟨rfl, by simp [longOrder], by simp [longOrder], by decide +kernel⟩
  exact ⟨by decide +kernel,
    localBook_reconciles (Paper.netting euroOnly _ 0) rfl hmoves⟩

/-- The entry keeps its size when half the position is taken; and the order that
was UNKNOWN and is filled after all stays out of the agent's book. -/
theorem not_localBook_reconciles_partialTake :
    findings (paperRun (1116 / 1000)
        [enterLong longOrder longOrder.fills, manageAt (1116 / 1000)]) =
        [(.sizeDrift, "EUR_USD")] ∧
      findings (paperRun (11 / 10)
        [enterLong { longOrder with state := .unknown, fills := [] } [],
          .fills longIntent longOrder.fills, .read]) = [(.orphan, "EUR_USD")] := by
  decide +kernel

end Sentinel
