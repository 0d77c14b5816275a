import Sentinel.Brokers.ConnectionRuns
import Sentinel.Research.Verdicts

/-!
# The activation gate

What an activation is decided on: the open positions, the stored probe, the
answer of the licence and the rows of the verdict store.  The gate counts the
accepted verdicts under a column that the store does not select, so that no
verdict is ever counted.
-/

namespace Sentinel
namespace Connections

/-! ## The evidence -/

inductive Cell
  | text (s : String)
  | integer (n : ℤ)
  deriving DecidableEq

def Cell.str : Cell → String
  | text s => s
  | integer n => toString n

structure DatedVerdict extends VerdictRow where
  createdNs : ℤ

def DatedVerdict.columns (v : DatedVerdict) : Dict String Cell :=
  .ofEntries
    [("run_id", .text v.runId), ("strategy", .text v.strategy), ("accepted", .integer v.accepted),
      ("created_ns", .integer v.createdNs), ("data_label", .text v.dataLabel),
      ("summary", .text v.summary)]

/-- `VerdictStore.list`, newest first. -/
def listVerdicts (rows : List DatedVerdict) (strategy : Option String) (limit : ℕ) :
    List (Dict String Cell) :=
  let chosen := match strategy.filter (· ≠ "") with
    | some name => rows.filter fun v : DatedVerdict => v.strategy = name
    | none => rows
  ((chosen.mergeSort fun a b => b.createdNs ≤ a.createdNs).take limit).map DatedVerdict.columns

def countsAsAccepted (row : Dict String Cell) : Bool :=
  (row.getD "verdict" (.text "")).str.toList.map Char.toLower = "accepted".toList

inductive LicenceAnswer
  | absent
  | raised
  | mayTradeLive (allowed : Bool)
  deriving DecidableEq

def LicenceAnswer.allows : LicenceAnswer → Option Bool
  | mayTradeLive allowed => some allowed
  | _ => none

/-- What an activation looks at, at one instant; the verdicts are `none` when the
store cannot be read. -/
structure Evidence where
  openPositions : ℕ
  licence : LicenceAnswer
  verdicts : Option (List DatedVerdict)
  now : ℤ

namespace Evidence

def accepted (e : Evidence) : ℕ :=
  match e.verdicts with
  | some rows => ((listVerdicts rows none 100).filter countsAsAccepted).length
  | none => 0

/-- The arguments of `activation_blockers`, and whether the configuration is
accepted afterwards. -/
def context (e : Evidence) (configAccepted : Bool) : ActivationContext where
  openPositions := e.openPositions
  licenceAllowsLive := e.licence.allows
  acceptedStrategies := e.accepted
  now := e.now
  configAccepted := configAccepted

end Evidence

variable (w : ConnectionWorld) (s : ConnectionTable) (c : BrokerConnection)

def activationOutcome (id : String) (ctx : ActivationContext) : Option ConnectionOutcome :=
  ((connectionMachine w).alone 0 (activateConnection w id ctx) [ctx.now, ctx.now, ctx.now] s).map
    Prod.snd

/-! ## What the gate is for -/

def ConnectionTable.inUse : Option BrokerConnection :=
  s.list.find? (·.enabled)

structure ForThisAccount (w : ConnectionWorld) (login : String) (p : ProbeSummary) : Prop where
  fingerprint : p.accountRef ≠ "" → p.accountRef = w.accountFingerprint login
  masked : p.accountRef = "" → '•' ∈ p.accountId.toList →
    p.accountId = ConnectionWorld.maskLogin (w.normaliseAccountId login)
  number : p.accountRef = "" → p.accountId ≠ "" → '•' ∉ p.accountId.toList →
    w.normaliseAccountId login ≠ "" → w.normaliseAccountId p.accountId ≠ "" →
      w.normaliseAccountId login = w.normaliseAccountId p.accountId

/-- A good probe, dated at most `ahead` after the present and at most a day before it. -/
structure Probed (w : ConnectionWorld) (c : BrokerConnection) (now ahead : ℤ)
    (p : ProbeSummary) : Prop where
  ok : p.ok = true
  notAhead : p.finishedNs ≤ now + ahead
  recent : now ≤ p.finishedNs + 86400000000000
  account : c.login ≠ "" → ForThisAccount w c.login p

variable (e : Evidence)

/-- Real money is permitted: by the licence, and by an accepted verdict. -/
def LiveReady : Prop :=
  e.licence = .mayTradeLive true ∧ ∃ rows, e.verdicts = some rows ∧ ∃ v ∈ rows, v.accepted ≠ 0

/-- What is asked of every connection: the positions stay with the venue in use,
and the connection has been probed. -/
def InOrder (ahead : ℤ) : Prop :=
  (e.openPositions = 0 ∨ s.inUse = some c) ∧
    ∃ p, c.lastProbe = some p ∧ Probed w c e.now ahead p

def GateExact : Prop :=
  ∀ configAccepted : Bool,
    activationOutcome w s c.id (e.context configAccepted) = some (.activated c.id) ↔
      configAccepted = true ∧ InOrder w s c e 0 ∧ (c.declaredAccountType = "live" → LiveReady e)

theorem InOrder.mono {w : ConnectionWorld} {s : ConnectionTable} {c : BrokerConnection}
    {e : Evidence} {ahead ahead' : ℤ} (h : InOrder w s c e ahead) (hle : ahead ≤ ahead') :
    InOrder w s c e ahead' := by
  obtain ⟨hpos, p, hp, hprobed⟩ := h
  exact ⟨hpos, p, hp, { hprobed with notAhead := hprobed.notAhead.trans (by omega) }⟩

/-! ## The verdicts are not counted -/

theorem countsAsAccepted_columns (v : DatedVerdict) : countsAsAccepted v.columns = false := by
  have hnone : v.columns.get? "verdict" = none := by
    rw [DatedVerdict.columns, Dict.get?_ofEntries_eq_none_iff]
    simp
  rw [countsAsAccepted, Dict.getD, hnone]
  decide

theorem Evidence.accepted_eq_zero : e.accepted = 0 := by
  rw [Evidence.accepted]
  split
  · rw [List.length_eq_zero_iff, List.filter_eq_nil_iff]
    intro row hrow
    rw [listVerdicts, List.mem_map] at hrow
    obtain ⟨v, -, rfl⟩ := hrow
    rw [countsAsAccepted_columns]
    exact Bool.false_ne_true
  · rfl

/-! ## What the blockers let through -/

theorem probedOtherAccount_eq_false_iff (login : String)
    (p : ProbeSummary) : w.probedOtherAccount login p = false ↔ ForThisAccount w login p := by
  rw [ConnectionWorld.probedOtherAccount]
  by_cases href : p.accountRef = ""
  · rw [if_neg (not_not.mpr href)]
    by_cases hid : p.accountId = ""
    · rw [if_pos hid]
      refine ⟨fun _ => ⟨fun h => absurd href h, fun _ h => ?_, fun _ h => absurd hid h⟩,
        fun _ => rfl⟩
      simp [hid] at h
    · rw [if_neg hid]
      by_cases hmask : '•' ∈ p.accountId.toList
      · rw [if_pos (by simpa using hmask), decide_eq_false_iff_not, not_not]
        exact ⟨fun h => ⟨fun h' => absurd href h', fun _ _ => h, fun _ _ h' => absurd hmask h'⟩,
          fun h => h.masked href hmask⟩
      · rw [if_neg (by simpa using hmask), decide_eq_false_iff_not, ConnectionWorld.sameAccount]
        constructor
        · intro h
          refine ⟨fun h' => absurd href h', fun _ h' => absurd h' hmask, fun _ _ _ hl hr => ?_⟩
          simpa [hl, hr] using h
        · intro h
          by_cases hl : w.normaliseAccountId login = ""
          · simp [hl]
          · by_cases hr : w.normaliseAccountId p.accountId = ""
            · simp [hr]
            · simpa [hl, hr] using h.number href hid hmask hl hr
  · rw [if_pos href, decide_eq_false_iff_not, not_not]
    exact ⟨fun h => ⟨fun _ => h, fun h' => absurd h' href, fun h' => absurd h' href⟩,
      fun h => h.fingerprint href⟩

theorem probeBlockers_eq_nil_iff (now : ℤ) :
    probeBlockers w c now = [] ↔
      ∃ p, c.lastProbe = some p ∧ Probed w c now 3600000000000 p := by
  rw [probeBlockers]
  rcases c.lastProbe with - | p
  · simp
  · simp only [List.append_eq_nil_iff, ite_eq_left_iff, reduceCtorEq, imp_false, not_not,
      ite_eq_right_iff, Option.some.injEq, exists_eq_left']
    constructor
    · rintro ⟨⟨hok, htime⟩, haccount⟩
      refine ⟨by simpa using hok, ?_, ?_, fun hlogin => ?_⟩
      · split at htime <;> first | cases htime | omega
      · split at htime
        · cases htime
        · split at htime
          · cases htime
          · omega
      · rw [← probedOtherAccount_eq_false_iff]
        simpa [hlogin] using haccount
    · rintro ⟨hok, hahead, hrecent, haccount⟩
      refine ⟨⟨by simpa using hok, ?_⟩, ?_⟩
      · rw [if_neg (by omega), if_neg (by omega)]
      · rintro ⟨hlogin, hother⟩
        rw [(probedOtherAccount_eq_false_iff w c.login p).mpr (haccount hlogin)] at hother
        cases hother

theorem activeId_eq_iff {s : ConnectionTable} {c : BrokerConnection} (hc : s.get? c.id = some c)
    (hid : c.id ≠ "") :
    c.id = (s.inUse.map (·.id)).getD "" ↔
      s.inUse = some c := by
  rcases hfind : s.inUse with - | d
  · simpa using hid
  · have hd : d ∈ s.table.values := by
      have hmem := List.mem_of_find?_eq_some hfind
      rwa [ConnectionTable.list, List.mem_mergeSort] at hmem
    obtain ⟨k, hk⟩ := (Dict.mem_values_iff s.table d).mp hd
    have hname : d.id = k := s.named k d hk
    rw [Option.map_some, Option.getD_some, Option.some.injEq]
    constructor
    · intro h
      have hget : s.table.get? c.id = some d := by rw [h, hname, hk]
      exact Option.some.inj (hget.symm.trans hc)
    · rintro rfl
      rfl

theorem id_ne_empty {w : ConnectionWorld} {c : BrokerConnection} (h : w.problem c = none) :
    c.id ≠ "" := by
  intro hid
  rw [ConnectionWorld.problem, hid, if_pos (by decide)] at h
  cases h

theorem activationBlockers_eq_nil_iff {w : ConnectionWorld} {s : ConnectionTable}
    {c : BrokerConnection} (hc : s.get? c.id = some c) (hid : c.id ≠ "") (e : Evidence)
    (configAccepted : Bool) :
    activationBlockers w c ((s.inUse.map (·.id)).getD "")
        (e.context configAccepted) = [] ↔
      InOrder w s c e 3600000000000 ∧ c.declaredAccountType ≠ "live" := by
  have hpos : (if (e.context configAccepted).openPositions > 0 ∧
      c.id ≠ (s.inUse.map (·.id)).getD "" then [Blocker.openPositions]
        else []) = [] ↔ e.openPositions = 0 ∨ s.inUse = some c := by
    rw [ite_eq_right_iff, ← activeId_eq_iff hc hid]
    simp [Evidence.context, Nat.pos_iff_ne_zero, or_iff_not_imp_left]
  rw [activationBlockers, List.append_eq_nil_iff, List.append_eq_nil_iff, hpos, InOrder,
    ← probeBlockers_eq_nil_iff]
  apply and_congr Iff.rfl
  by_cases hlive : c.declaredAccountType = "live"
  · simp [hlive, Evidence.context, Evidence.accepted_eq_zero]
  · simp [hlive]

theorem activationOutcome_eq {w : ConnectionWorld} {s : ConnectionTable} {c : BrokerConnection}
    (hc : s.get? c.id = some c) (ctx : ActivationContext) :
    activationOutcome w s c.id ctx = some (.activated c.id) ↔
      ctx.configAccepted = true ∧
        activationBlockers w c ((s.inUse.map (·.id)).getD "") ctx = [] := by
  simp only [activationOutcome, activateConnection, store, Prog.perform, bind, Prog.bind,
    Machine.alone, connectionMachine, performCall, hc, ConnectionTable.inUse,
    ConnectionTable.list_hold]
  rcases hblockers : activationBlockers w c (((s.list.find? (·.enabled)).map (·.id)).getD "") ctx
    with - | ⟨b, bs⟩
  · rcases hconf : ctx.configAccepted <;> simp [hblockers, Machine.alone, performCall]
  · simp [hblockers, Machine.alone]

/-! ## When the gate is exact -/

/-- The gate is exact when a live connection is not in order, and when the probe
of another one is not dated ahead while everything else is in order. -/
theorem gateExact_iff (hc : s.get? c.id = some c) (hvalid : w.problem c = none) (e : Evidence) :
    GateExact w s c e ↔
      (c.declaredAccountType = "live" → ¬(InOrder w s c e 0 ∧ LiveReady e)) ∧
        (c.declaredAccountType ≠ "live" → InOrder w s c e 3600000000000 → InOrder w s c e 0) := by
  have hgate (configAccepted : Bool) :
      activationOutcome w s c.id (e.context configAccepted) = some (.activated c.id) ↔
        configAccepted = true ∧ InOrder w s c e 3600000000000 ∧ c.declaredAccountType ≠ "live" := by
    rw [activationOutcome_eq hc, activationBlockers_eq_nil_iff hc (id_ne_empty hvalid)]
    rfl
  simp only [GateExact, hgate]
  constructor
  · intro h
    have hopen := h true
    refine ⟨fun hlive hready => ?_, fun hlive horder => ?_⟩
    · exact (hopen.mpr ⟨rfl, hready.1, fun _ => hready.2⟩).2.2 hlive
    · exact (hopen.mp ⟨rfl, horder, hlive⟩).2.1
  · rintro ⟨hlive, hother⟩ configAccepted
    apply and_congr Iff.rfl
    constructor
    · rintro ⟨horder, hdemo⟩
      exact ⟨hother hdemo horder, fun h => absurd h hdemo⟩
    · rintro ⟨horder, hready⟩
      have hdemo : c.declaredAccountType ≠ "live" := fun h => hlive h ⟨horder, hready h⟩
      exact ⟨horder.mono (by norm_num), hdemo⟩

def testedAccount (kind : String) : BrokerConnection :=
  let req : SaveRequest :=
    { id := "alpha", displayName := "alpha", profile := "paper", declaredAccountType := kind }
  { req.fresh 0 with lastProbe := some (probe paperWorld (req.fresh 0) ⟨[], "", 0, "", "USD"⟩) }

def fullEvidence : Evidence where
  openPositions := 0
  licence := .mayTradeLive true
  verdicts := some [⟨⟨"run-1", "donchian", 1, "live-quality", "accepted", "abc"⟩, 0⟩]
  now := 0

theorem testedAccount_inOrder (kind : String) :
    InOrder paperWorld (.put .empty (testedAccount kind)) (testedAccount kind) fullEvidence 0 :=
  ⟨.inl rfl, _, rfl, rfl, le_refl (0 : ℤ), by norm_num [fullEvidence, probe],
    fun h => absurd rfl h⟩

theorem testedAccount_stored (kind : String) :
    (ConnectionTable.put .empty (testedAccount kind)).get? (testedAccount kind).id =
      some (testedAccount kind) := by
  rw [ConnectionTable.get?_put, if_pos rfl]

/-- With the demonstration account the gate is exact. -/
theorem gateExact_demo :
    GateExact paperWorld (.put .empty (testedAccount "demo")) (testedAccount "demo")
      fullEvidence := by
  refine (gateExact_iff paperWorld _ _ (testedAccount_stored "demo") (by decide) _).mpr
    ⟨fun hlive => ?_, fun _ _ => testedAccount_inOrder "demo"⟩
  exact absurd hlive (by decide)

/-- The live account is not activated, whatever has been accepted. -/
theorem live_account_never_activated :
    ¬GateExact paperWorld (.put .empty (testedAccount "live")) (testedAccount "live")
      fullEvidence := by
  intro h
  have hactivated := (h true).mpr
    ⟨rfl, testedAccount_inOrder "live", fun _ => ⟨rfl, _, rfl, _, List.mem_singleton_self _,
      one_ne_zero⟩⟩
  rw [activationOutcome_eq (testedAccount_stored "live"),
    activationBlockers_eq_nil_iff (testedAccount_stored "live") (by decide)] at hactivated
  exact hactivated.2.2 rfl

end Connections
end Sentinel
