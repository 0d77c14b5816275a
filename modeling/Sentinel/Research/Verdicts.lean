import Sentinel.Core.Audit
import Sentinel.Core.Config

/-!
# The authority of a configuration

A strategy may trade real money only from the accepted lifecycle, and the
verdict store says which run accepted which configuration.  At every start the
loaded configuration is checked against the store: a strategy that no verdict
backs is suspended, and a live configuration without a tradable strategy is put
into observe mode.
-/

namespace Sentinel

/-- `AgentMode`, from the least authority to the most. -/
inductive AgentMode where
  | observe
  | advisory
  | semiAuto
  | autonomous
  deriving DecidableEq

def AgentMode.authority : AgentMode → ℕ
  | observe => 0
  | advisory => 1
  | semiAuto => 2
  | autonomous => 3

inductive ExecutionVenueMode where
  | paper
  | demo
  | live
  deriving DecidableEq

/-! ## The configuration

`δ` stands for the JSON text of a section, or of a part of it, that the checks
compare as a whole. -/

/-- `StrategyAllocation`, with its lifecycle guard. -/
structure StrategyAllocation (δ : Type) where
  name : String
  enabled : Bool := false
  weight : Dec := 1
  instruments : List String := []
  timeframe : String := "H1"
  params : δ
  lifecycle : Lifecycle := .hypothesis
  acceptedAtNs : Option ℤ := none
  acceptanceRunId : Option String := none
  accepted_named : lifecycle = .accepted → ∃ id, acceptanceRunId = some id ∧ id ≠ "" := by simp

/-- The agent's section; `rest` is every other setting of it. -/
structure AgentSection (δ : Type) where
  mode : AgentMode := .advisory
  manualTradingLive : Bool := false
  metaModelPath : Option String := none
  rest : δ

/-- The execution section; `rest` is every other setting of it. -/
structure ExecutionSection (δ : Type) where
  venueMode : ExecutionVenueMode := .paper
  broker : String := "paper"
  expectedAccountId : String := ""
  expectedAccountServer : String := ""
  rest : δ

/-- `SentinelConfig`, with the cross-checks on its strategies. -/
structure SentinelConfig (δ : Type) where
  version : ℤ := 1
  updatedAtNs : ℤ
  updatedBy : String := "system"
  agent : AgentSection δ
  execution : ExecutionSection δ
  risk : δ
  news : δ
  research : δ
  /-- the sections that the checks do not read -/
  others : δ
  strategies : List (StrategyAllocation δ) := []
  names_nodup : (strategies.map StrategyAllocation.name).Nodup := by simp
  live_accepted : execution.venueMode = .live →
    ∀ a ∈ strategies, a.enabled = true → a.lifecycle = .accepted := by simp

variable {δ : Type}

def StrategyAllocation.tradable (a : StrategyAllocation δ) : Bool :=
  a.enabled && decide (a.lifecycle = .accepted)

/-! ## Fingerprints -/

/-- `runtime_policy`: what of a configuration changes what a signal becomes. -/
structure RuntimePolicy (δ : Type) where
  risk : δ
  agent : δ
  metaModelSha256 : Option String
  execution : δ
  news : δ
  research : δ

structure FingerprintBody (δ : Type) where
  schemaVersion : ℕ := 2
  instruments : List String
  params : δ
  timeframe : String
  sourceSha256 : String
  runtime : RuntimePolicy δ

/-- The source of the checkout, the model files and the digest. -/
structure AuthorityEnv (δ : Type) where
  sourceDigest : String
  /-- the digest of a file's content; `none` when it cannot be read -/
  fileSha256 : String → Option String
  digest : FingerprintBody δ → String

namespace SentinelConfig

variable (env : AuthorityEnv δ)

def metaModelSha256 (agent : AgentSection δ) : Option String :=
  match agent.metaModelPath with
  | none => none
  | some path =>
      if path = "" then none
      else some ((env.fileSha256 path).getD ("unreadable:" ++ path))

/-- Not the mode, the venue and the account: they are operating choices about
the same behaviour. -/
def runtimePolicy (c : SentinelConfig δ) : RuntimePolicy δ :=
  { risk := c.risk, agent := c.agent.rest, metaModelSha256 := metaModelSha256 env c.agent,
    execution := c.execution.rest, news := c.news, research := c.research }

def configFingerprint (c : SentinelConfig δ) (a : StrategyAllocation δ) : String :=
  env.digest
    { instruments := a.instruments.mergeSort, params := a.params, timeframe := a.timeframe,
      sourceSha256 := env.sourceDigest, runtime := c.runtimePolicy env }

end SentinelConfig

/-! ## The verdict store -/

structure VerdictRow where
  runId : String
  strategy : String
  accepted : ℤ
  dataLabel : String
  summary : String
  configHash : String
  deriving DecidableEq

structure VerdictStore where
  rows : List VerdictRow
  existedOnOpen : Bool
  unique : (rows.map VerdictRow.runId).Nodup

inductive VerdictRefusal where
  | noRunId
  | unknownRun (runId : String)
  | otherStrategy (runId strategy : String)
  | notPassed (runId summary : String)
  | otherData (runId dataLabel : String)
  | noFingerprint
  | otherConfiguration (runId : String)
  | unbound (runId : String)
  deriving DecidableEq

namespace VerdictStore

def get (s : VerdictStore) (runId : String) : Option VerdictRow :=
  s.rows.find? fun row => row.runId = runId

def wasPresent (s : VerdictStore) : Bool := s.existedOnOpen || !s.rows.isEmpty

def authorises (s : VerdictStore) (strategy : String) (runId : Option String)
    (configHash : String) : Except VerdictRefusal Unit :=
  match runId.filter (· ≠ "") with
  | none => .error .noRunId
  | some id =>
      match s.get id with
      | none => .error (.unknownRun id)
      | some row =>
          let stored := Chars.strip row.configHash.toList
          if row.strategy ≠ strategy then .error (.otherStrategy id row.strategy)
          else if row.accepted = 0 then .error (.notPassed id row.summary)
          else if row.dataLabel ≠ "live-quality" then .error (.otherData id row.dataLabel)
          else if configHash = "" then .error .noFingerprint
          else if stored ≠ [] ∧ stored ≠ configHash.toList then
            .error (.otherConfiguration id)
          else if stored = [] then .error (.unbound id)
          else .ok ()

theorem wasPresent_of_authorises {s : VerdictStore} {strategy : String}
    {runId : Option String} {configHash : String}
    (h : s.authorises strategy runId configHash = .ok ()) : s.wasPresent = true := by
  rw [authorises] at h
  cases hid : runId.filter (· ≠ "") with
  | none =>
      rw [hid] at h
      cases h
  | some id =>
      rw [hid] at h
      simp only at h
      cases hrow : s.get id with
      | none =>
          rw [hrow] at h
          cases h
      | some row =>
          have hmem := List.mem_of_find?_eq_some hrow
          have hne : s.rows.isEmpty = false := by
            rw [List.isEmpty_eq_false_iff]
            exact List.ne_nil_of_mem hmem
          rw [wasPresent, hne, Bool.not_false, Bool.or_true]

end VerdictStore

/-! ## Enforcement -/

/-- What the check refused. -/
inductive AuthorityViolation where
  | unbacked (name : String) (why : VerdictRefusal)
  | nothingTradable
  deriving DecidableEq

structure RegistryUnreadable where
  deriving DecidableEq

namespace SentinelConfig

variable (env : AuthorityEnv δ) (store : VerdictStore) (c : SentinelConfig δ)

variable (a : StrategyAllocation δ)

def backed : Except VerdictRefusal Unit :=
  store.authorises a.name a.acceptanceRunId (c.configFingerprint env a)

def demote : StrategyAllocation δ :=
  { a with
    lifecycle := .suspended
    enabled := false
    acceptedAtNs := none
    acceptanceRunId := none
    accepted_named := by simp }

def checkAllocation : StrategyAllocation δ × Option VerdictRefusal :=
  if a.lifecycle ≠ .accepted then (a, none)
  else
    match c.backed env store a with
    | .ok () => (a, none)
    | .error why => (demote a, some why)

def checkedStrategies : List (StrategyAllocation δ) :=
  c.strategies.map fun a => (c.checkAllocation env store a).1

def nothingTradable : Bool :=
  decide (c.execution.venueMode = .live) &&
    !(c.checkedStrategies env store).any StrategyAllocation.tradable

def violations : List AuthorityViolation :=
  (c.strategies.filterMap fun a =>
    (c.checkAllocation env store a).2.map (AuthorityViolation.unbacked a.name)) ++
    if c.nothingTradable env store then [.nothingTradable] else []

def claimsAcceptance : Bool :=
  c.strategies.any fun a => a.lifecycle = .accepted

theorem name_checkAllocation : (c.checkAllocation env store a).1.name = a.name := by
  rw [checkAllocation]
  split_ifs with haccepted
  · rfl
  · cases hback : c.backed env store a with
    | ok _ => rfl
    | error why => rfl

theorem checkAllocation_cases :
    ((c.checkAllocation env store a) = (a, none) ∧
        (a.lifecycle = .accepted → c.backed env store a = .ok ())) ∨
      ∃ why, a.lifecycle = .accepted ∧ c.backed env store a = .error why ∧
        c.checkAllocation env store a = (demote a, some why) := by
  by_cases haccepted : a.lifecycle = .accepted
  · cases hback : c.backed env store a with
    | ok _ =>
        left
        rw [checkAllocation, if_neg (by simpa using haccepted), hback]
        exact ⟨rfl, fun _ => rfl⟩
    | error why =>
        right
        refine ⟨why, haccepted, rfl, ?_⟩
        rw [checkAllocation, if_neg (by simpa using haccepted), hback]
  · left
    rw [checkAllocation, if_pos haccepted]
    exact ⟨rfl, fun h => absurd h haccepted⟩

theorem enabled_checked {c : SentinelConfig δ}
    (hlive : c.execution.venueMode = .live) :
    ∀ a ∈ c.checkedStrategies env store, a.enabled = true → a.lifecycle = .accepted := by
  intro a' ha' henabled
  obtain ⟨a, ha, rfl⟩ := List.mem_map.mp ha'
  rcases checkAllocation_cases env store c a with ⟨heq, -⟩ | ⟨why, -, -, heq⟩
  · rw [heq] at henabled ⊢
    exact c.live_accepted hlive a ha henabled
  · rw [heq] at henabled
    cases henabled

def repaired (now : ℤ) (c : SentinelConfig δ) : SentinelConfig δ :=
  { c with
    version := c.version + 1
    updatedAtNs := now
    updatedBy := "startup-authority"
    agent := { c.agent with
      mode := if c.nothingTradable env store then .observe else c.agent.mode }
    strategies := c.checkedStrategies env store
    names_nodup := by
      rw [checkedStrategies, List.map_map]
      have hnames : (StrategyAllocation.name ∘ fun a => (c.checkAllocation env store a).1) =
          StrategyAllocation.name := funext fun a => name_checkAllocation env store c a
      rw [hnames]
      exact c.names_nodup
    live_accepted := fun hlive => enabled_checked env store hlive }

def enforceConfigAuthority (now : ℤ)
    (c : SentinelConfig δ) :
    Except RegistryUnreadable (SentinelConfig δ × List AuthorityViolation × Bool) :=
  if c.claimsAcceptance && !store.wasPresent then .error {}
  else if (c.violations env store).isEmpty then .ok (c, [], false)
  else .ok (c.repaired env store now, c.violations env store, true)

end SentinelConfig

end Sentinel
