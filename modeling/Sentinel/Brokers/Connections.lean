import Sentinel.Core.Audit
import Sentinel.Support.DigitForms
import Sentinel.Support.Interleaving

/-!
# Broker connections

The stored connections to venues, and the four operations of the console on
them: saving, testing, activating and deleting one.  Each method of the store is
one step; an operation reads a record, decides, and writes later.  The venue's
answer to a test, the state of the engine and of the licence and the outcome of
the configuration write are arguments.
-/

namespace Sentinel
namespace Connections

/-! ## Records -/

structure Identity where
  profile : String
  server : String
  login : String
  terminalPath : String
  exchangeId : String
  declaredAccountType : String
  deriving DecidableEq

/-- What is stored of a probe.  `taken`, the identity that was probed, is no part
of the program. -/
structure ProbeSummary where
  connectionId : String
  profile : String
  ok : Bool
  finishedNs : ℤ
  blockingFailures : List String
  error : String
  accountId : String
  accountRef : String
  accountCurrency : String
  taken : Identity
  sound : ok = true → blockingFailures = []
  deriving DecidableEq

/-- `BrokerConnection`.  `activatedWith`, the probe it had when it was last
activated, is no part of the program. -/
structure BrokerConnection where
  id : String
  displayName : String
  profile : String
  origin : String
  server : String
  login : String
  terminalPath : String
  accountCurrency : String
  exchangeId : String
  secretRef : String
  declaredAccountType : String
  enabled : Bool
  createdNs : ℤ
  updatedNs : ℤ
  lastProbe : Option ProbeSummary
  notes : String
  activatedWith : Option ProbeSummary
  deriving DecidableEq

def BrokerConnection.identity (c : BrokerConnection) : Identity where
  profile := c.profile
  server := c.server
  login := c.login
  terminalPath := c.terminalPath
  exchangeId := c.exchangeId
  declaredAccountType := c.declaredAccountType

/-- What the records are checked and compared with: the adapter of each known
profile, `str.upper` and the digest of an account number. -/
structure ConnectionWorld where
  profiles : List (String × String)
  upper : String → String
  accountDigest : String → String

namespace ConnectionWorld

variable (w : ConnectionWorld)

/-- `resolve_profile`, down to its adapter. -/
def adapter? (profile : String) : Option String := w.profiles.lookup profile

def isIdEdge (c : Char) : Bool := ('a' ≤ c && c ≤ 'z') || ('0' ≤ c && c ≤ '9')

/-- `_ID_RE`; its `$` also matches before a last line feed. -/
def idMatches (id : String) : Bool :=
  let cs := if id.toList.getLast? = some '\n' then id.toList.dropLast else id.toList
  2 ≤ cs.length && cs.length ≤ 40 && cs.head?.any isIdEdge && cs.getLast?.any isIdEdge &&
    cs.all fun c => isIdEdge c || c = '-' || c = '_'

/-- `BrokerConnection.__post_init__`. -/
def problem (c : BrokerConnection) : Option String :=
  if !idMatches c.id then
    some ("connection id '" ++ c.id ++ "' is not usable: use 2-40 characters, " ++
      "lower-case letters, digits, '-' or '_'. The id ends up in file " ++
      "names and in the audit journal, so it stays boring on purpose.")
  else if c.declaredAccountType ≠ "demo" ∧ c.declaredAccountType ≠ "live" then
    some ("declared_account_type must be 'demo' or 'live'. There is no " ++
      "'unknown': an operator who does not know which kind of account " ++
      "this is must not be configuring it.")
  else if w.adapter? c.profile = none then
    some ("unknown broker profile '" ++ c.profile ++ "'. Known: " ++
      ", ".intercalate (w.profiles.map Prod.fst) ++ ". " ++
      "Use 'generic_mt5' for an unlisted MetaTrader broker.")
  else none

def normaliseAccountId (value : String) : String :=
  let digits := value.toList.filter isDigit
  if digits ≠ [] then
    let number := digits.dropWhile fun c => c = '0'
    if number = [] then "0" else String.ofList number
  else w.upper (String.ofList (value.toList.filter fun c => !Chars.isSpace c))

def sameAccount (a b : String) : Option Bool :=
  let left := w.normaliseAccountId a
  let right := w.normaliseAccountId b
  if left = "" ∨ right = "" then none else some (left = right)

def accountFingerprint (value : String) : String :=
  let norm := w.normaliseAccountId value
  if norm = "" then "" else w.accountDigest norm

def maskLogin (login : String) : String :=
  let text := Chars.strip login.toList
  if text.length ≤ 3 then String.ofList (text.map fun _ => '•')
  else String.ofList (List.replicate (text.length - 3) '•' ++ text.drop (text.length - 3))

def probedOtherAccount (login : String) (probe : ProbeSummary) : Bool :=
  if probe.accountRef ≠ "" then probe.accountRef ≠ w.accountFingerprint login
  else if probe.accountId = "" then false
  else if probe.accountId.toList.contains '•' then
    probe.accountId ≠ maskLogin (w.normaliseAccountId login)
  else w.sameAccount login probe.accountId = some false

end ConnectionWorld

/-! ## The store -/

/-- `ConnectionStore`: the records, each under its own id.  `held`, the record each
thread has read last, is no part of the program. -/
structure ConnectionTable where
  table : Dict String BrokerConnection
  named : ∀ id c, table.get? id = some c → c.id = id
  held : ℕ → Option BrokerConnection

namespace ConnectionTable

def empty : ConnectionTable := ⟨Dict.empty, fun _ _ h => (nomatch h), fun _ => none⟩

def hold (s : ConnectionTable) (t : ℕ) (c : Option BrokerConnection) : ConnectionTable :=
  { s with held := Function.update s.held t c }

def get? (s : ConnectionTable) (id : String) : Option BrokerConnection := s.table.get? id

/-- `list`, oldest first. -/
def list (s : ConnectionTable) : List BrokerConnection :=
  s.table.values.mergeSort fun a b => a.createdNs ≤ b.createdNs

def put (s : ConnectionTable) (c : BrokerConnection) : ConnectionTable where
  table := s.table.set c.id c
  held := s.held
  named id c' h := by
    rw [Dict.get?_set] at h
    split at h
    · rename_i hid
      cases h
      exact hid.symm
    · exact s.named id c' h

def upsert (s : ConnectionTable) (c : BrokerConnection) (now : ℤ) : ConnectionTable :=
  s.put { c with updatedNs := now }

def delete (s : ConnectionTable) (id : String) : ConnectionTable where
  table := s.table.erase id
  held := s.held
  named k c h := by
    rw [Dict.get?_erase] at h
    split at h
    · cases h
    · exact s.named k c h

def setProbe (s : ConnectionTable) (id : String) (probe : ProbeSummary) (now : ℤ) :
    ConnectionTable :=
  match s.get? id with
  | some c => s.put { c with lastProbe := some probe, updatedNs := now }
  | none => s

def switch (id : String) (c : BrokerConnection) : BrokerConnection :=
  if c.id = id then { c with enabled := true, activatedWith := c.lastProbe }
  else { c with enabled := false }

theorem switch_id (id : String) (c : BrokerConnection) : (switch id c).id = c.id := by
  rw [switch]
  split <;> rfl

def setExclusiveEnabled (s : ConnectionTable) (id : String) : ConnectionTable where
  table := s.table.mapValues (switch id)
  held := s.held
  named k c h := by
    rw [Dict.get?_mapValues, Option.map_eq_some_iff] at h
    obtain ⟨old, hold, rfl⟩ := h
    rw [switch_id]
    exact s.named k old hold

theorem list_hold (s : ConnectionTable) (t : ℕ) (c : Option BrokerConnection) :
    (s.hold t c).list = s.list := rfl

theorem get?_put (s : ConnectionTable) (c : BrokerConnection) (id : String) :
    (s.put c).get? id = if id = c.id then some c else s.get? id := Dict.get?_set _ _ _ _

theorem get?_delete (s : ConnectionTable) (id id' : String) :
    (s.delete id).get? id' = if id' = id then none else s.get? id' := Dict.get?_erase _ _ _

theorem get?_setExclusiveEnabled (s : ConnectionTable) (id id' : String) :
    (s.setExclusiveEnabled id).get? id' = (s.get? id').map (switch id) :=
  Dict.get?_mapValues _ _ _

theorem id_of_get? {s : ConnectionTable} {id : String} {c : BrokerConnection}
    (h : s.get? id = some c) : c.id = id := s.named id c h

end ConnectionTable

/-! ## The operations -/

inductive StoreCall
  | get (id : String)
  | list
  | upsert (c : BrokerConnection)
  | delete (id : String)
  | setProbe (id : String) (probe : ProbeSummary)
  | setExclusiveEnabled (id : String)

@[reducible] def StoreCall.Answer : StoreCall → Type
  | get _ => Option BrokerConnection
  | list => List BrokerConnection
  | delete _ => Bool
  | _ => Unit

def performCall (t : ℕ) : (a : StoreCall) → ℤ → ConnectionTable →
    Option (ConnectionTable × a.Answer)
  | .get id, _, s => some (s.hold t (s.get? id), s.get? id)
  | .list, _, s => some (s, s.list)
  | .upsert c, now, s => some (s.upsert c now, ())
  | .delete id, _, s => some (s.delete id, (s.get? id).isSome)
  | .setProbe id probe, now, s => some (s.setProbe id probe now, ())
  | .setExclusiveEnabled id, _, s => some (s.setExclusiveEnabled id, ())

/-- `ConnectionSave`, with every field of the form. -/
structure SaveRequest where
  id : String
  displayName : String
  profile : String
  declaredAccountType : String := "demo"
  server : String := ""
  login : String := ""
  terminalPath : String := ""
  accountCurrency : String := ""
  exchangeId : String := ""
  origin : String := "manual"
  notes : String := ""
  secret : Option String := none

structure ProbeOutcome where
  blockingFailures : List String
  error : String
  finishedNs : ℤ
  accountId : String
  accountCurrency : String

structure ActivationContext where
  openPositions : ℤ
  licenceAllowsLive : Option Bool
  acceptedStrategies : ℤ
  now : ℤ
  configAccepted : Bool

inductive Blocker
  | openPositions
  | neverTested
  | testFailed
  | testAhead
  | testTooOld
  | otherAccount
  | licence
  | noAcceptedStrategy
  deriving DecidableEq

/-- Why an operation raises a `ValueError`. -/
inductive Refusal
  | invalid (problem : String)
  | secretsUnavailable
  | secretUnreadable
  | terminalInUse
  | activeVenue
  | configuration
  deriving DecidableEq

inductive ConnectionOutcome
  | saved (c : BrokerConnection)
  | tested (probe : ProbeSummary)
  | activated (id : String)
  | deleted (id : String)
  | blocked (reasons : List Blocker)
  | refused (reason : Refusal)
  | unknownConnection (id : String)

abbrev ConnectionProg (ρ : Type) : Type := Prog StoreCall.Answer ρ

/-- The step of one method. -/
def store (a : StoreCall) : ConnectionProg a.Answer := Prog.perform a

def SaveRequest.over (req : SaveRequest) (c : BrokerConnection) : BrokerConnection :=
  { c with
    displayName := req.displayName
    profile := req.profile
    declaredAccountType := req.declaredAccountType
    server := req.server
    login := req.login
    terminalPath := req.terminalPath
    accountCurrency := req.accountCurrency
    exchangeId := req.exchangeId
    origin := req.origin
    notes := req.notes }

def SaveRequest.fresh (req : SaveRequest) (now : ℤ) : BrokerConnection :=
  req.over
    { id := req.id, displayName := "", profile := "generic_mt5", origin := "manual", server := "",
      login := "", terminalPath := "", accountCurrency := "", exchangeId := "", secretRef := "",
      declaredAccountType := "demo", enabled := false, createdNs := now, updatedNs := now,
      lastProbe := none, notes := "", activatedWith := none }

def SaveRequest.merge (req : SaveRequest) (existing : BrokerConnection) : BrokerConnection :=
  let merged := req.over existing
  if merged.identity ≠ existing.identity then { merged with lastProbe := none, enabled := false }
  else merged

def withSecret (secret : Option String) (c : BrokerConnection) : BrokerConnection :=
  match secret with
  | none => c
  | some secret => { c with secretRef := if secret = "" then "" else "broker:" ++ c.id }

def saveConnection (w : ConnectionWorld) (req : SaveRequest) (now : ℤ)
    (secretsAvailable : Bool) : ConnectionProg ConnectionOutcome := do
  let existing ← store (.get req.id)
  let c := (existing.map req.merge).getD (req.fresh now)
  match w.problem c with
  | some problem => return .refused (.invalid problem)
  | none =>
      if req.secret.isSome && !secretsAvailable then return .refused .secretsUnavailable
      else do
        store (.upsert (withSecret req.secret c))
        return .saved (withSecret req.secret c)

/-- `delete_connection`, while the engine runs on this profile. -/
def deleteConnection (id currentBroker : String) : ConnectionProg ConnectionOutcome := do
  match ← store (.get id) with
  | none => return .unknownConnection id
  | some c =>
      if c.profile = currentBroker && c.enabled then return .refused .activeVenue
      else do
        let _ ← store (.delete id)
        return .deleted id

/-- `probe`, and what is stored of its report. -/
def probe (w : ConnectionWorld) (c : BrokerConnection) (outcome : ProbeOutcome) : ProbeSummary where
  connectionId := c.id
  profile := c.profile
  ok := outcome.blockingFailures.isEmpty && outcome.error = ""
  finishedNs := outcome.finishedNs
  blockingFailures := outcome.blockingFailures
  error := outcome.error
  accountId := ConnectionWorld.maskLogin outcome.accountId
  accountRef := w.accountFingerprint outcome.accountId
  accountCurrency := outcome.accountCurrency
  taken := c.identity
  sound h := by
    rw [Bool.and_eq_true, List.isEmpty_iff] at h
    exact h.1

/-- `test_connection`; `liveTerminal` says that the engine holds a MetaTrader
session, `secretReadable` that a stored credential can be read. -/
def testConnection (w : ConnectionWorld) (id : String) (liveTerminal secretReadable : Bool)
    (venue : BrokerConnection → ProbeOutcome) : ConnectionProg ConnectionOutcome := do
  match ← store (.get id) with
  | none => return .unknownConnection id
  | some c =>
      if ["mt5", "mt4"].contains ((w.adapter? c.profile).getD "mt5") && liveTerminal then
        return .refused .terminalInUse
      else if c.secretRef ≠ "" && !secretReadable then return .refused .secretUnreadable
      else do
        store (.setProbe c.id (probe w c (venue c)))
        return .tested (probe w c (venue c))

def probeBlockers (w : ConnectionWorld) (c : BrokerConnection) (now : ℤ) : List Blocker :=
  match c.lastProbe with
  | none => [.neverTested]
  | some probe =>
      (if probe.ok then [] else [.testFailed]) ++
      (if now - probe.finishedNs < -3600000000000 then [.testAhead]
        else if now - probe.finishedNs > 86400000000000 then [.testTooOld] else []) ++
      if c.login ≠ "" ∧ w.probedOtherAccount c.login probe then [.otherAccount] else []

def activationBlockers (w : ConnectionWorld) (c : BrokerConnection) (currentId : String)
    (ctx : ActivationContext) : List Blocker :=
  (if ctx.openPositions > 0 ∧ c.id ≠ currentId then [.openPositions] else []) ++
  probeBlockers w c ctx.now ++
  if c.declaredAccountType = "live" then
    (if ctx.licenceAllowsLive = some true then [] else [.licence]) ++
    if ctx.acceptedStrategies ≤ 0 then [.noAcceptedStrategy] else []
  else []

def activateConnection (w : ConnectionWorld) (id : String) (ctx : ActivationContext) :
    ConnectionProg ConnectionOutcome := do
  match ← store (.get id) with
  | none => return .unknownConnection id
  | some c =>
      let all ← store .list
      let active := ((all.find? (·.enabled)).map (·.id)).getD ""
      if activationBlockers w c active ctx ≠ [] then
        return .blocked (activationBlockers w c active ctx)
      else if !ctx.configAccepted then return .refused .configuration
      else do
        store (.setExclusiveEnabled c.id)
        return .activated c.id

inductive ConnectionOp
  | save (req : SaveRequest) (now : ℤ) (secretsAvailable : Bool)
  | test (id : String) (liveTerminal secretReadable : Bool)
      (venue : BrokerConnection → ProbeOutcome)
  | activate (id : String) (ctx : ActivationContext)
  | delete (id currentBroker : String)

def ConnectionOp.program (w : ConnectionWorld) : ConnectionOp → ConnectionProg ConnectionOutcome
  | save req now secretsAvailable => saveConnection w req now secretsAvailable
  | test id liveTerminal secretReadable venue =>
      testConnection w id liveTerminal secretReadable venue
  | activate id ctx => activateConnection w id ctx
  | delete id currentBroker => deleteConnection id currentBroker

def connectionMachine (w : ConnectionWorld) :
    Machine ConnectionTable ℤ ConnectionOp Empty ConnectionOutcome StoreCall.Answer where
  code := ConnectionOp.program w
  perform := performCall
  outside x := nomatch x

end Connections
end Sentinel
