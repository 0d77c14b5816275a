import Sentinel.Execution.Reconcile

/-!
# The agent's own record of its positions

A venue returns neither the risk a position was opened with nor the flags of
the protection rules, so the agent keeps an entry for each instrument and
re-attaches it to what the venue reports.  An entry is a mapping whose keys may
be missing: every field is optional, and the mapping without keys is false to
Python.
-/

namespace Sentinel

/-- `Side.value`. -/
def Side.value : Side → String
  | .buy => "BUY"
  | .sell => "SELL"

/-- `Side(text)`, `none` when it raises. -/
def Side.ofValue? (text : String) : Option Side :=
  if text = "BUY" then some .buy
  else if text = "SELL" then some .sell
  else none

@[simp] theorem Side.ofValue?_value (s : Side) : Side.ofValue? s.value = some s := by
  cases s <;> rfl

theorem Side.value_ne_empty (s : Side) : s.value ≠ "" := by
  cases s <;> decide

theorem Side.eq_opposite_of_ne {s t : Side} (h : s ≠ t) : s = t.opposite := by
  cases s <;> cases t <;> simp_all [Side.opposite]

/-- An entry of `_position_meta`: the value of every key that is present.  A
number and its text are read alike, so both are the number. -/
structure PositionMeta where
  initialRisk : Option Dec := none
  intendedRisk : Option Dec := none
  strategy : Option String := none
  side : Option String := none
  lots : Option Dec := none
  entryPrice : Option Dec := none
  /-- the key may be present with the value `None` -/
  stopLoss : Option (Option Dec) := none
  clientOrderId : Option String := none
  openedNs : Option ℤ := none
  regime : Option String := none
  maxHoldSec : Option ℤ := none
  provisional : Option Bool := none
  partialTaken : Option Bool := none
  breakevenMoved : Option Bool := none
  maxFavourable : Option Dec := none
  maxAdverse : Option Dec := none
  deriving DecidableEq

namespace PositionMeta

/-- The mapping without keys. -/
def empty : PositionMeta := {}

/-- `if meta`. -/
def truthy (m : PositionMeta) : Bool := decide (m ≠ empty)

/-- `str(meta.get("side", ""))`. -/
def sideText (m : PositionMeta) : String := m.side.getD ""

/-- The entry names the side `s`. -/
def HasSide (m : PositionMeta) (s : Side) : Prop := m.side = some s.value

instance (m : PositionMeta) (s : Side) : Decidable (m.HasSide s) :=
  inferInstanceAs (Decidable (_ = _))

@[simp] theorem truthy_empty : empty.truthy = false := by simp [truthy]

theorem truthy_iff (m : PositionMeta) : m.truthy = true ↔ m ≠ empty := by simp [truthy]

end PositionMeta

/-- A `deque(maxlen=n)`: what is appended beyond `n` items pushes the oldest
out. -/
structure BoundedList (n : ℕ) (α : Type) where
  items : List α
  length_le : items.length ≤ n

namespace BoundedList

variable {n : ℕ} {α : Type}

def empty : BoundedList n α := ⟨[], Nat.zero_le n⟩

/-- `append`. -/
def push (d : BoundedList n α) (a : α) : BoundedList n α where
  items := (d.items ++ [a]).drop (d.items.length + 1 - n)
  length_le := by
    rw [List.length_drop, List.length_append, List.length_singleton]
    omega

/-- `clear()` and then `extend(items)`. -/
def ofList (items : List α) : BoundedList n α := items.foldl push empty

theorem push_items_of_lt (d : BoundedList n α) (a : α) (h : d.items.length < n) :
    (d.push a).items = d.items ++ [a] := by
  have hzero : d.items.length + 1 - n = 0 := by omega
  simp [push, hzero]

theorem ofList_items {items : List α} (h : items.length ≤ n) :
    (ofList items : BoundedList n α).items = items := by
  have hgen : ∀ (todo : List α) (d : BoundedList n α), d.items.length + todo.length ≤ n →
      (todo.foldl push d).items = d.items ++ todo := by
    intro todo
    induction todo with
    | nil => simp
    | cons a todo ih =>
        intro d hd
        rw [List.length_cons] at hd
        have hpush := push_items_of_lt d a (by omega)
        rw [List.foldl_cons, ih (d.push a) (by rw [hpush]; simp; omega), hpush]
        simp
  simpa [ofList, empty] using hgen items empty (by simpa [empty] using h)

theorem ext_items {d e : BoundedList n α} (h : d.items = e.items) : d = e := by
  cases d
  cases e
  simpa using h

@[simp] theorem ofList_self (d : BoundedList n α) : ofList d.items = d :=
  ext_items (ofList_items d.length_le)

end BoundedList

structure Agent where
  equityPeak : Dec := 0
  equityPeakMarked : Dec := 0
  dayProfitLocked : Bool := false
  ladderRung : ℤ := 0
  dayStartEquity : Dec := 0
  weekStartEquity : Dec := 0
  monthStartEquity : Dec := 0
  dayKey : Option ℤ := none
  weekKey : Option (ℤ × ℤ) := none
  monthKey : Option (ℤ × ℤ) := none
  yearKey : Option ℤ := none
  tradesToday : ℤ := 0
  tradesWeek : ℤ := 0
  tradesYear : ℤ := 0
  lastEntryNs : Option ℤ := none
  halted : Bool := false
  haltReason : String := ""
  positionMeta : Dict String PositionMeta := .empty
  entryRegime : Dict String String := .empty
  /-- `_processed_order`; the set beside it holds the same ids -/
  processedOrder : BoundedList 5000 String := .empty
  equityMarks : BoundedList 400 (ℤ × Dec) := .empty
  tradeCursor : String := ""
  guardSuspended : Dict String String := .empty

namespace Agent

variable (a : Agent)

/-- `halt(reason)`: the first reason stays. -/
def halt (reason : String) : Agent :=
  if a.halted then a else { a with halted := true, haltReason := reason }

@[simp] theorem halt_halted (reason : String) : (a.halt reason).halted = true := by
  unfold halt
  split <;> simp_all

@[simp] theorem halt_positionMeta (reason : String) :
    (a.halt reason).positionMeta = a.positionMeta := by
  unfold halt
  split <;> rfl

/-! ## `_local_book` -/

def bookRow (symbol : String) (m : PositionMeta) : Option Position :=
  if m.provisional = some true then none
  else
    (Side.ofValue? m.sideText).map fun side =>
      { instrument := symbol
        side := side
        lots := m.lots.getD 0
        entryPrice := m.entryPrice.getD 0
        openedNs := m.openedNs.getD 0
        strategy := m.strategy.getD ""
        stopLoss := m.stopLoss.join.filter fun stop => stop ≠ 0
        initialRisk := max 0 (m.initialRisk.getD 0)
        initialRisk_nonneg := le_max_left _ _
        clientOrderId := some (m.clientOrderId.getD "") }

/-- `_local_book`: the agent's own view of what is open. -/
def localBook : List Position :=
  a.positionMeta.items.filterMap fun (symbol, m) => bookRow symbol m

/-! ## `_hydrate` -/

def attach (m : PositionMeta) (p : Position) : Position :=
  { p with
    initialRisk := if p.initialRisk ≤ 0 then max 0 (m.initialRisk.getD 0) else p.initialRisk
    initialRisk_nonneg := by
      split
      · exact le_max_left _ _
      · exact p.initialRisk_nonneg
    strategy := if p.strategy = "" then m.strategy.getD "" else p.strategy
    openedNs := if p.openedNs = 0 then m.openedNs.getD 0 else p.openedNs
    scaledOut := m.partialTaken.getD false
    breakevenMoved := m.breakevenMoved.getD false }

variable (p : Position)

/-- Why `_hydrate` halts. -/
def sideChanged : String :=
  "the " ++ p.side.value ++ " position on " ++ p.instrument ++
    " does not match the position this agent recorded; its risk cannot be measured " ++
    "until a human confirms the account state"

def stale : Bool :=
  (a.positionMeta.get? p.instrument).any fun m => m.truthy && m.sideText ≠ p.side.value

/-- One round of the first loop of `_hydrate`. -/
def hydrateOne : Agent × Position :=
  if a.stale p then
    (({ a with positionMeta := a.positionMeta.erase p.instrument }).halt (sideChanged p), p)
  else
    match a.positionMeta.get? p.instrument with
    | none => (a, p)
    | some m => (a, if m.truthy then attach m p else p)

/-- The first loop of `_hydrate`. -/
def hydrateAll (a : Agent) : List Position → Agent × List Position
  | [] => (a, [])
  | p :: ps =>
      let (next, q) := a.hydrateOne p
      let (last, qs) := hydrateAll next ps
      (last, q :: qs)

def prune (positions : List Position) : Agent :=
  { a with
    positionMeta := a.positionMeta.restrict fun symbol =>
      decide (symbol ∈ positions.map Position.instrument) }

/-- The last loop of `_hydrate`: the peak excursions. -/
def attachExcursions : Position :=
  match a.positionMeta.get? p.instrument with
  | none => p
  | some m =>
      if m.truthy then
        { p with maxFavourable := m.maxFavourable.getD 0, maxAdverse := m.maxAdverse.getD 0 }
      else p

def hydrate (positions : List Position) : Agent × List Position :=
  let (checked, out) := a.hydrateAll positions
  let pruned := checked.prune positions
  (pruned, out.map pruned.attachExcursions)

end Agent

end Sentinel
