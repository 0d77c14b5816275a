import Sentinel.Core.Money
import Sentinel.Support.Dict
import Sentinel.Support.Runs
import Mathlib.Data.List.Count
import Mathlib.Data.List.Dedup

/-!
# The trial ledger

The ledger keeps one row for every combination that was ever evaluated and
counts the rows that were searches.  A strategy is charged with the searches
of its family; the family of a strategy that is not registered is read off the
row of it that was seen last.
-/

namespace Sentinel

/-- `kind` of a row. -/
inductive TrialKind where
  | search
  | validation
  deriving DecidableEq

def TrialKind.ofText? : String → Option TrialKind
  | "search" => some .search
  | "validation" => some .validation
  | _ => none

/-- A row of the table `trials`. -/
structure TrialRow where
  trialKey : String
  strategy : String
  family : String
  timeframe : String
  instruments : List String
  /-- the JSON text of the parameters -/
  params : String
  dataWindow : String
  dataLabel : String
  kind : TrialKind
  firstSeenNs : ℤ
  lastSeenNs : ℤ
  runs : ℕ := 1
  note : String := ""
  deriving DecidableEq

/-- The arguments of `record`. -/
structure TrialCall (ρ : Type) where
  strategy : String
  family : String := "unclassified"
  params : ρ
  instruments : List String := []
  timeframe : String := ""
  dataWindow : String := ""
  dataLabel : String := "unknown"
  kind : String := "search"
  note : String := ""
  sessionId : Option String := none

/-- What the ledger takes from outside: the JSON text of a parameter set, the
digest of a trial, the id of the session, and the family of a registered
strategy. -/
structure TrialEnv (ρ : Type) where
  dumps : ρ → String
  digest : String → ρ → List String → String → String → String
  sessionId : String
  familyOf : String → Option String

/-- The tables `trials`, by primary key, and `trial_sessions`. -/
structure TrialLedger where
  trials : Dict String TrialRow := .empty
  sessions : Dict (String × String) ℤ := .empty

/-- `TrialSummary`, without its notes. -/
structure TrialSummary where
  strategy : String
  family : String
  strategyTrials : ℕ := 0
  familyTrials : ℕ := 0
  sessions : ℕ := 0
  totalRuns : ℕ := 0
  firstSeenNs : Option ℤ := none
  lastSeenNs : Option ℤ := none
  distinctParamSets : ℕ := 0

def TrialSummary.charge (s : TrialSummary) : ℕ := max s.strategyTrials s.familyTrials

variable {ρ : Type}

namespace TrialLedger

/-! ## `record` -/

variable (env : TrialEnv ρ)

def trialKey (c : TrialCall ρ) : String :=
  env.digest c.strategy c.params c.instruments.mergeSort c.timeframe c.dataWindow

/-- What `ON CONFLICT(trial_key) DO UPDATE` makes of a row: a search stays
one. -/
def seenAgain (row : TrialRow) (kind : TrialKind) (now : ℤ) : TrialRow :=
  { row with
    lastSeenNs := now
    runs := row.runs + 1
    kind := if row.kind = .search ∨ kind = .search then .search else row.kind }

def firstRow (c : TrialCall ρ) (kind : TrialKind) (now : ℤ) : TrialRow where
  trialKey := trialKey env c
  strategy := c.strategy
  family := c.family
  timeframe := c.timeframe
  instruments := c.instruments.mergeSort
  params := env.dumps c.params
  dataWindow := c.dataWindow
  dataLabel := c.dataLabel
  kind := kind
  firstSeenNs := now
  lastSeenNs := now
  note := c.note

variable (l : TrialLedger) (strategy : String)

def writtenRow (c : TrialCall ρ) (kind : TrialKind) (now : ℤ) : TrialRow :=
  match l.trials.get? (trialKey env c) with
  | none => firstRow env c kind now
  | some row => seenAgain row kind now

/-- `record`, at the time `now`. -/
def record (now : ℤ) (l : TrialLedger) (c : TrialCall ρ) :
    Except ValueError (String × TrialLedger) :=
  match TrialKind.ofText? c.kind with
  | none => .error ⟨"kind must be 'search' or 'validation'"⟩
  | some kind =>
      let key := trialKey env c
      let session := ((c.sessionId.filter (· ≠ "")).getD env.sessionId)
      .ok (key,
        { trials := l.trials.set key (writtenRow env l c kind now)
          sessions :=
            if l.sessions.contains (key, session) then l.sessions
            else l.sessions.set (key, session) now })

/-! ## `count` and `summary` -/

def matchesText (filter : Option String) (text : String) : Bool :=
  match filter with
  | none => true
  | some wanted => wanted = "" || wanted = text

def matchesKind (filter : Option TrialKind) (kind : TrialKind) : Bool :=
  match filter with
  | none => true
  | some wanted => wanted = kind

def selects (strategy family : Option String) (kind : Option TrialKind) (row : TrialRow) :
    Bool :=
  matchesKind kind row.kind && matchesText strategy row.strategy &&
    matchesText family row.family

def count (strategy family : Option String) (kind : Option TrialKind) : ℕ :=
  l.trials.values.countP (selects strategy family kind)

def sessionCount (strategy family : Option String) (kind : Option TrialKind) : ℕ :=
  ((l.sessions.keys.filter fun entry =>
    (l.trials.get? entry.1).any (selects strategy family kind)).map Prod.snd).dedup.length

/-- `ORDER BY last_seen_ns DESC LIMIT 1`. -/
def newest : List TrialRow → Option TrialRow
  | [] => none
  | row :: rows =>
      match newest rows with
      | none => some row
      | some other => if row.lastSeenNs < other.lastSeenNs then some other else some row

def recordedFamily : Option String :=
  (newest (l.trials.values.filter fun row => row.strategy = strategy)).map TrialRow.family

/-- The family `summary` resolves; an empty name counts as none. -/
def familyFor : String :=
  let named (family : Option String) := family.filter (· ≠ "")
  ((named (env.familyOf strategy)).or (named (l.recordedFamily strategy))).getD "unclassified"

def searchesOf : List TrialRow :=
  l.trials.values.filter fun row => row.strategy = strategy ∧ row.kind = .search

def summary (family : Option String) : TrialSummary :=
  let family := family.getD (l.familyFor env strategy)
  let rows := l.searchesOf strategy
  { strategy := strategy
    family := family
    strategyTrials := rows.length
    familyTrials := l.count none (some family) (some .search)
    sessions := l.sessionCount none (some family) (some .search)
    totalRuns := (rows.map TrialRow.runs).sum
    firstSeenNs := (rows.map TrialRow.firstSeenNs).min?
    lastSeenNs := (rows.map TrialRow.lastSeenNs).max?
    distinctParamSets := (rows.map TrialRow.params).dedup.length }

def chargeOf : ℕ :=
  (l.summary env strategy none).charge

end TrialLedger

end Sentinel
