import Sentinel.Research.Acceptance

/-!
# The evidence behind an acceptance

An acceptance should rest on every required gate having been run on the evidence
that the protocol names for it, and met, so that nothing is gained by holding
evidence back.  Some gates are run without theirs, and a gate that the environment
brings along stands in for one that is not run.  A call slips when only such gates
lack their evidence and the evidence meets everything that is asked of it.
-/

namespace Sentinel.Acceptance

variable {δ : Type}

/-! ## Evidence -/

namespace EvaluateCall

def supplied (c : EvaluateCall δ) : ProtocolGate → Bool
  | .baselines => !c.baselines.isEmpty
  | .randomWalk => !c.candidate.signalLog.isEmpty
  | .factorAlpha => ["dollar", "carry", "momentum"].all fun name =>
      (c.factorData.getD []).any fun f => decide (f.1 = name) && Statistics.usable f.2
  | .overfitting => (given c.pboMatrix).isSome
  | .deflatedSharpe => !c.candidate.perBarReturns.isEmpty
  | .superiorAbility => (given c.variantReturns).isSome
  | .stability => !c.paths.isEmpty
  | .stress => c.stressed.isSome
  | .drawdown => !c.paths.isEmpty
  | .power => !c.candidate.perBarReturns.isEmpty
  | .data => c.provenance.any Provenance.verified
  | .sharedRuntime => isReplay c.candidate.diagnostics.engine
  | .forward => c.forward.any ForwardRecord.verified
  | .integrity => decide (c.candidate.diagnostics ≠ {})

def Tried (c : EvaluateCall δ) : ProtocolGate → Prop
  | .randomWalk => c.rc.requireRandomWalkBeat = true
  | .factorAlpha => c.rc.requireFactorAlpha = true ∧ c.factorData.getD [] ≠ []
  | .overfitting => given c.pboMatrix ≠ none
  | .superiorAbility => given c.variantReturns ≠ none
  | .stability => c.paths ≠ []
  | .stress => c.stressed ≠ none
  | _ => True

def Significant (a : Attribution) (level : FloatValue) : Prop :=
  a.alphaP.lt level = true ∧ (FloatValue.finite 0).lt a.alphaPerPeriod = true

def BeatsBaselines (env : AcceptanceEnv δ) (c : EvaluateCall δ) : Prop :=
  let sharpe := env.statistics.sharpeRatio c.candidate.perBarReturns c.periodsPerYear
  (FloatValue.finite 0).lt sharpe = true ∧
    ∀ b ∈ c.baselines, b.2.performance.sharpe.lt sharpe = true

def Directional (env : AcceptanceEnv δ) (c : EvaluateCall δ) : Prop :=
  let signed := (c.candidate.signalLog.filterMap fun r => r).filter FloatValue.isFinite
  30 ≤ signed.length ∧ (env.statistics.directionalP signed).lt c.rc.alpha = true

def HasAlpha (env : AcceptanceEnv δ) (c : EvaluateCall δ) : Prop :=
  let factors := (c.factorData.getD []).filter fun f => Statistics.usable f.2
  let returns := c.candidate.perBarReturns
  (factors = [] → Significant (env.statistics.rawMean returns) c.rc.alpha) ∧
    (factors ≠ [] →
      Significant (env.statistics.regression returns factors) c.rc.alpha)

def LongEnough (env : AcceptanceEnv δ) (c : EvaluateCall δ) : Prop :=
  let returns := c.candidate.perBarReturns
  let finite := returns.filter FloatValue.isFinite
  4 ≤ finite.length ∧
    ∃ needed, env.statistics.minTrackRecord finite c.rc.alpha c.periodsPerYear = some needed ∧
      needed.le (.finite returns.length) = true

structure VerifiedData (c : EvaluateCall δ) (prov : Provenance δ) : Prop where
  label : c.dataLabel = "live-quality"
  verified : prov.verified = true
  bidAsk : prov.bidAsk = true
  hashes : prov.sha256 ≠ []
  costs : prov.costSchedule ≠ []
  broker : prov.broker ≠ ""

structure SameRuntime (d : Diagnostics) : Prop where
  replay : isReplay d.engine = true
  cadence : d.executionCadenceSec.getD (10 ^ 9) ≤ d.decisionIntervalSec.getD 60
  context : d.runtimeContextComplete = true

structure VerifiedForward (env : AcceptanceEnv δ) (c : EvaluateCall δ) (fwd : ForwardRecord) :
    Prop where
  verified : fwd.verified = true
  trades : ∃ n, fwd.nTrades = some n ∧ 50 ≤ n
  profit : ∃ pnl, fwd.netPnl = some pnl ∧ (FloatValue.finite 0).lt pnl = true
  sameConfig : fwd.runtimeHash = some (c.fingerprintUnder env c.runtimeConfig)
  drawdown : (fwd.maxDrawdownPct.getD (.finite 101)).le c.maxDrawdownCeilingPct = true

structure CleanRun (r : BacktestResult δ) : Prop where
  errors : r.diagnostics.generationErrors = false
  errorCount : r.diagnostics.generationErrorCount.getD 0 = 0
  running : r.diagnostics.halted = false
  trades : 30 ≤ r.performance.nTrades

def Criterion (env : AcceptanceEnv δ) (c : EvaluateCall δ) : ProtocolGate → Prop
  | .baselines => c.BeatsBaselines env
  | .randomWalk => c.Directional env
  | .factorAlpha => c.HasAlpha env
  | .overfitting => ∀ m ∈ given c.pboMatrix,
      (env.statistics.pbo m c.periodsPerYear).le c.rc.pboMax = true
  | .deflatedSharpe => c.rc.minDsr.le
      (env.statistics.deflatedSharpe c.candidate.perBarReturns c.effectiveTrials
        (env.statistics.trialSharpes c.variantReturns c.periodsPerYear) c.periodsPerYear) = true
  | .superiorAbility => ∀ m ∈ given c.variantReturns,
      (env.statistics.hansenSpaP m).lt c.rc.alpha = true
  | .stability => c.rc.cpcvPositivePathFraction.le (env.statistics.fraction
      (c.paths.countP fun p =>
        (FloatValue.finite 0).lt (env.statistics.sharpeRatio p c.periodsPerYear))
      c.paths.length) = true
  | .stress => ∀ s ∈ c.stressed, (FloatValue.finite 0).lt s.performance.sharpe = true ∧
      (FloatValue.finite 0).lt s.performance.netReturnPct = true
  | .drawdown => c.candidate.performance.maxDrawdownPct.le c.maxDrawdownCeilingPct = true ∧
      ∀ p ∈ c.paths, env.statistics.pathDrawdown p = .nan ∨
        (env.statistics.pathDrawdown p).le c.maxDrawdownCeilingPct = true
  | .power => c.LongEnough env
  | .data => ∃ prov, c.provenance = some prov ∧ c.VerifiedData prov
  | .sharedRuntime => SameRuntime c.candidate.diagnostics
  | .forward => ∃ fwd, c.forward = some fwd ∧ c.VerifiedForward env fwd
  | .integrity => CleanRun c.candidate

end EvaluateCall

inductive Argument where
  | baselines
  | cpcvPathReturns
  | stressed
  | variantReturns
  | pboMatrix
  | factorData
  | provenance
  | forward
  deriving DecidableEq

namespace Argument

def feeds : Argument → List ProtocolGate
  | baselines => [.baselines]
  | cpcvPathReturns => [.stability, .drawdown]
  | stressed => [.stress]
  | variantReturns => [.superiorAbility, .deflatedSharpe]
  | pboMatrix => [.overfitting, .deflatedSharpe]
  | factorData => [.factorAlpha]
  | provenance => [.data]
  | forward => [.forward]

def gate : Argument → ProtocolGate
  | baselines => .baselines
  | cpcvPathReturns => .stability
  | stressed => .stress
  | variantReturns => .superiorAbility
  | pboMatrix => .overfitting
  | factorData => .factorAlpha
  | provenance => .data
  | forward => .forward

end Argument

def EvaluateCall.withhold (c : EvaluateCall δ) : Argument → EvaluateCall δ
  | .baselines => { c with baselines := [] }
  | .cpcvPathReturns => { c with cpcvPathReturns := none }
  | .stressed => { c with stressed := none }
  | .variantReturns => { c with variantReturns := none }
  | .pboMatrix => { c with pboMatrix := none }
  | .factorData => { c with factorData := none }
  | .provenance => { c with provenance := none }
  | .forward => { c with forward := none }

def Accepts (env : AcceptanceEnv δ) (c : EvaluateCall δ) : Prop :=
  ∃ v, evaluate env c = .ok v ∧ v.accepted = true

structure EvidenceKept (env : AcceptanceEnv δ) (c : EvaluateCall δ) : Prop where
  earned : Accepts env c →
    ∀ p ∈ c.rc.required, c.supplied p = true ∧ c.ran env p = some true ∧ c.Criterion env p
  withheld : ∀ w, Accepts env (c.withhold w) → Accepts env c

/-! ## Slipping through -/

namespace EvaluateCall

def LetThrough (c : EvaluateCall δ) (p : ProtocolGate) : Prop :=
  p = .baselines ∨ p = .drawdown ∨ p = .factorAlpha ∧ c.factorData.getD [] ≠ [] ∨
    ∃ g ∈ c.environment.getD [], g.id = p.id

def MatrixFits (c : EvaluateCall δ) : Prop :=
  ∀ m ∈ given c.pboMatrix, m.ndim = 2 ∧ 2 ≤ m.columnCount

/-- Evidence is missing for gates that are let through, and for no others; the
evidence there is meets what is asked of it, and no gate brought along has failed. -/
structure Slips (env : AcceptanceEnv δ) (c : EvaluateCall δ) : Prop where
  fits : c.MatrixFits
  carried : ∀ g, c.CarriedGate g → g.blocking = true → g.passed = true
  met : ∀ p, c.Tried p → c.Criterion env p
  gap : ∃ p ∈ c.rc.required, c.supplied p = false
  through : ∀ p ∈ c.rc.required, c.supplied p = false → c.LetThrough p

variable {env : AcceptanceEnv δ} {c : EvaluateCall δ}

/-! ### The gates

A gate that is put to the test passes when its criterion is met. -/

structure Exact (result : Option Bool) (tried criterion : Prop) : Prop where
  none_iff : result = none ↔ ¬tried
  passed_iff : ∀ passed, result = some passed → (passed = true ↔ criterion)

theorem Exact.always {passed : Bool} {criterion : Prop} (h : passed = true ↔ criterion) :
    Exact (some passed) True criterion := by
  refine ⟨by simp, ?_⟩
  rintro _ ⟨⟩
  exact h

theorem Exact.given {α : Type} {evidence : Option α} {test : α → Bool} {criterion : α → Prop}
    (h : ∀ a, test a = true ↔ criterion a) :
    Exact (evidence.map test) (evidence ≠ none) (∀ a ∈ evidence, criterion a) := by
  rcases evidence with - | a
  · exact ⟨by simp, nofun⟩
  · refine ⟨by simp, ?_⟩
    rintro _ ⟨⟩
    simp [h a]

theorem Exact.asked {asked : Bool} {passed : Bool} {criterion : Prop}
    (h : asked = true → (passed = true ↔ criterion)) :
    Exact (if asked then some passed else none) (asked = true) criterion := by
  cases asked
  · exact ⟨by simp, nofun⟩
  · refine ⟨by simp, ?_⟩
    rintro _ ⟨⟩
    exact h rfl

theorem exact_baselines : Exact (c.baselinesGate env) True (c.BeatsBaselines env) := by
  apply Exact.always
  rw [Bool.and_eq_true, List.all_eq_true]
  exact and_comm

theorem exact_randomWalk :
    Exact (c.randomWalkGate env) (c.rc.requireRandomWalkBeat = true) (c.Directional env) := by
  apply Exact.asked
  intro _
  rw [Directional, Statistics.directionalAccuracy, List.filter_filter]
  simp only [Bool.and_self]
  generalize (c.candidate.signalLog.filterMap fun r => r).filter FloatValue.isFinite = signed
  split
  · rename_i hfew
    simp only [Bool.and_eq_true, decide_eq_true_eq]
    constructor
    · rintro ⟨-, hmany⟩
      omega
    · rintro ⟨hmany, -⟩
      omega
  · rw [Bool.and_eq_true, decide_eq_true_eq]
    exact and_comm

theorem exact_factorAlpha :
    Exact (c.factorAlphaGate env) (c.rc.requireFactorAlpha = true ∧ c.factorData.getD [] ≠ [])
      (c.HasAlpha env) := by
  have hasked : (c.rc.requireFactorAlpha && !(c.factorData.getD []).isEmpty) = true ↔
      c.rc.requireFactorAlpha = true ∧ c.factorData.getD [] ≠ [] := by
    simp
  rw [← hasked]
  apply Exact.asked
  intro _
  rw [Attribution.significant, Statistics.attributeReturns, HasAlpha, Bool.and_eq_true]
  generalize (c.factorData.getD []).filter (fun f => Statistics.usable f.2) = factors
  rcases factors with - | ⟨f, fs⟩
  · simp [Significant]
  · simp [Significant]

theorem exact_stability :
    Exact (c.stabilityGate env) (c.Tried .stability) (c.Criterion env .stability) := by
  rw [stabilityGate, Tried]
  rcases hpaths : c.paths with - | ⟨p, ps⟩
  · exact ⟨by simp, nofun⟩
  · refine ⟨by simp, ?_⟩
    rintro _ ⟨⟩
    rw [Criterion, hpaths]

theorem larger_le (a b c : FloatValue) :
    (larger a b).le c = true ↔ a.le c = true ∧ (b = .nan ∨ b.le c = true) := by
  rw [larger]
  by_cases hlt : a.lt b = true
  · rw [if_pos hlt]
    cases a <;> cases b <;> cases c <;> simp_all [FloatValue.lt, FloatValue.le]
    exact fun h => hlt.le.trans h
  · rw [if_neg hlt]
    cases a <;> cases b <;> cases c <;> simp_all [FloatValue.lt, FloatValue.le]
    exact fun h => hlt.trans h

theorem exact_drawdown : Exact (c.drawdownGate env) True (c.Criterion env .drawdown) := by
  have hfold : ∀ (paths : List (List FloatValue)) (worst : FloatValue),
      (paths.foldl (fun worst p => larger worst (env.statistics.pathDrawdown p)) worst).le
          c.maxDrawdownCeilingPct = true ↔
        worst.le c.maxDrawdownCeilingPct = true ∧
          ∀ p ∈ paths, env.statistics.pathDrawdown p = .nan ∨
            (env.statistics.pathDrawdown p).le c.maxDrawdownCeilingPct = true := by
    intro paths
    induction paths with
    | nil => simp
    | cons p ps ih =>
        intro worst
        rw [List.foldl_cons, ih, larger_le, List.forall_mem_cons, and_assoc]
  exact Exact.always (hfold c.paths _)

theorem exact_power : Exact (c.powerGate env) True (c.LongEnough env) := by
  rw [powerGate, LongEnough]
  dsimp only [Statistics.minTrackRecordLength]
  generalize c.candidate.perBarReturns.filter FloatValue.isFinite = finite
  split
  · rename_i hnone
    apply Exact.always
    constructor
    · nofun
    · rintro ⟨hfour, needed, hneeded, -⟩
      rw [if_neg (not_lt.mpr hfour), hneeded] at hnone
      cases hnone
  · rename_i needed hneeded
    have hfour : ¬finite.length < 4 := by
      intro hfew
      rw [if_pos hfew] at hneeded
      cases hneeded
    rw [if_neg hfour] at hneeded
    apply Exact.always
    constructor
    · exact fun h => ⟨not_lt.mp hfour, needed, hneeded, h⟩
    · rintro ⟨-, _, hsame, h⟩
      rw [hneeded, Option.some.injEq] at hsame
      rwa [hsame]

theorem exact_data : Exact c.dataGate True (c.Criterion env .data) := by
  apply Exact.always
  rcases hprov : c.provenance with - | prov
  · simp [Criterion, hprov]
  · simp only [Option.getD_some, Bool.and_eq_true, decide_eq_true_eq, Criterion, hprov,
      Option.some.injEq, exists_eq_left']
    simp only [Bool.not_eq_true', List.isEmpty_eq_false_iff]
    constructor
    · rintro ⟨⟨⟨⟨⟨hlabel, hverified⟩, hbid⟩, hhashes⟩, hcosts⟩, hbroker⟩
      exact ⟨hlabel, hverified, hbid, hhashes, hcosts, hbroker⟩
    · rintro ⟨hlabel, hverified, hbid, hhashes, hcosts, hbroker⟩
      exact ⟨⟨⟨⟨⟨hlabel, hverified⟩, hbid⟩, hhashes⟩, hcosts⟩, hbroker⟩

theorem exact_sharedRuntime :
    Exact c.sharedRuntimeGate True (SameRuntime c.candidate.diagnostics) := by
  apply Exact.always
  rw [Bool.and_eq_true, Bool.and_eq_true, decide_eq_true_eq]
  constructor
  · rintro ⟨⟨hreplay, hcadence⟩, hcontext⟩
    exact ⟨hreplay, hcadence, hcontext⟩
  · rintro ⟨hreplay, hcadence, hcontext⟩
    exact ⟨⟨hreplay, hcadence⟩, hcontext⟩

theorem exact_forward : Exact (c.forwardGate env) True (c.Criterion env .forward) := by
  apply Exact.always
  rcases hforward : c.forward with - | fwd
  · simp [Criterion, hforward]
  · simp only [Option.getD_some, Bool.and_eq_true, decide_eq_true_eq, Criterion, hforward,
      Option.some.injEq, exists_eq_left']
    constructor
    · rintro ⟨⟨⟨⟨hverified, htrades⟩, hprofit⟩, hsame⟩, hdrawdown⟩
      refine ⟨hverified, ?_, ?_, hsame, hdrawdown⟩
      · rcases hn : fwd.nTrades with - | n
        · rw [hn] at htrades
          exact absurd htrades (by decide)
        · rw [hn] at htrades
          exact ⟨n, rfl, htrades⟩
      · rcases hpnl : fwd.netPnl with - | pnl
        · rw [hpnl] at hprofit
          exact absurd hprofit (by decide)
        · rw [hpnl] at hprofit
          exact ⟨pnl, rfl, hprofit⟩
    · rintro ⟨hverified, ⟨n, hn, htrades⟩, ⟨pnl, hpnl, hprofit⟩, hsame, hdrawdown⟩
      rw [hn, hpnl]
      exact ⟨⟨⟨⟨hverified, htrades⟩, hprofit⟩, hsame⟩, hdrawdown⟩

theorem exact_integrity : Exact c.integrityGate True (CleanRun c.candidate) := by
  apply Exact.always
  simp only [Bool.and_eq_true, Bool.not_eq_true', decide_eq_true_eq]
  constructor
  · rintro ⟨⟨⟨herrors, hcount⟩, hhalted⟩, htrades⟩
    exact ⟨herrors, hcount, hhalted, htrades⟩
  · rintro ⟨herrors, hcount, hhalted, htrades⟩
    exact ⟨⟨⟨herrors, hcount⟩, hhalted⟩, htrades⟩

theorem exact_ran (p : ProtocolGate) : Exact (c.ran env p) (c.Tried p) (c.Criterion env p) := by
  cases p with
  | baselines => exact exact_baselines
  | randomWalk => exact exact_randomWalk
  | factorAlpha => exact exact_factorAlpha
  | overfitting => exact Exact.given fun m => Iff.rfl
  | deflatedSharpe => exact Exact.always Iff.rfl
  | superiorAbility => exact Exact.given fun m => Iff.rfl
  | stability => exact exact_stability
  | stress => exact Exact.given fun s => Bool.and_eq_true_iff
  | drawdown => exact exact_drawdown
  | power => exact exact_power
  | data => exact exact_data
  | sharedRuntime => exact exact_sharedRuntime
  | forward => exact exact_forward
  | integrity => exact exact_integrity

theorem ran_ne_false_iff {p : ProtocolGate} :
    c.ran env p ≠ some false ↔ (c.Tried p → c.Criterion env p) := by
  obtain ⟨hnone, hpassed⟩ : Exact (c.ran env p) (c.Tried p) (c.Criterion env p) := exact_ran p
  rcases hran : c.ran env p with - | passed
  · rw [hran] at hnone
    exact ⟨fun _ htried => absurd htried (hnone.mp rfl), fun _ => nofun⟩
  · rw [hran] at hnone
    have htried : c.Tried p := by
      by_contra hnot
      exact Option.some_ne_none _ (hnone.mpr hnot)
    rw [← hpassed passed hran]
    cases passed <;> simp [htried]

theorem passes_iff :
    c.Passes env ↔ (∀ g, c.CarriedGate g → g.blocking = true → g.passed = true) ∧
      ∀ p, c.Tried p → c.Criterion env p :=
  ⟨fun h => ⟨h.carried, fun p => ran_ne_false_iff.mp (h.ran p)⟩,
    fun h => ⟨h.1, fun p => ran_ne_false_iff.mpr (h.2 p)⟩⟩

theorem matrixFits_iff : c.matrixFits = true ↔ c.MatrixFits := by
  rw [matrixFits, MatrixFits]
  rcases given c.pboMatrix with - | m <;> simp

theorem accepts_iff :
    Accepts env c ↔ c.matrixFits = true ∧ c.Passes env ∧ c.Listed env := by
  rw [Accepts, evaluate]
  by_cases hfits : c.matrixFits = true
  · rw [if_pos hfits, ← accepted_iff]
    constructor
    · rintro ⟨v, hv, haccepted⟩
      obtain rfl := Except.ok.inj hv
      rw [accepted_verdict] at haccepted
      exact ⟨hfits, haccepted⟩
    · rintro ⟨-, haccepted⟩
      exact ⟨_, rfl, accepted_verdict.trans haccepted⟩
  · rw [if_neg hfits]
    constructor
    · rintro ⟨v, hv, -⟩
      cases hv
    · rintro ⟨htrue, -⟩
      exact absurd htrue hfits

variable {p : ProtocolGate}

theorem required_switches (hp : p ∈ c.rc.required) :
    (p = .randomWalk → c.rc.requireRandomWalkBeat = true) ∧
      (p = .factorAlpha → c.rc.requireFactorAlpha = true) := by
  have hswitch := (List.mem_filter.mp hp).2
  constructor
  · rintro rfl
    exact hswitch
  · rintro rfl
    exact hswitch

theorem ran_ne_none (hp : p ∈ c.rc.required) (h : c.supplied p = true) : c.ran env p ≠ none := by
  obtain ⟨hwalk, hfactor⟩ := required_switches hp
  cases p with
  | randomWalk => simp [ran, randomWalkGate, hwalk rfl]
  | factorAlpha =>
      have hne : c.factorData.getD [] ≠ [] := by
        intro hnil
        simp [supplied, hnil] at h
      simp [ran, factorAlphaGate, hfactor rfl, hne]
  | overfitting =>
      obtain ⟨m, hm⟩ := Option.isSome_iff_exists.mp h
      simp [ran, overfittingGate, hm]
  | superiorAbility =>
      obtain ⟨m, hm⟩ := Option.isSome_iff_exists.mp h
      simp [ran, superiorAbilityGate, hm]
  | stability =>
      have hne : c.paths.isEmpty = false := by simpa [supplied] using h
      simp [ran, stabilityGate, hne]
  | stress =>
      obtain ⟨s, hs⟩ := Option.isSome_iff_exists.mp h
      simp [ran, stressGate, hs]
  | power =>
      simp only [ran, powerGate]
      split <;> exact Option.some_ne_none _
  | baselines => exact Option.some_ne_none _
  | deflatedSharpe => exact Option.some_ne_none _
  | drawdown => exact Option.some_ne_none _
  | data => exact Option.some_ne_none _
  | sharedRuntime => exact Option.some_ne_none _
  | forward => exact Option.some_ne_none _
  | integrity => exact Option.some_ne_none _

theorem letThrough_of_accepts (h : Accepts env c) {p : ProtocolGate} (hp : p ∈ c.rc.required)
    (hmissing : c.supplied p = false) : c.LetThrough p := by
  obtain ⟨-, hpasses, hlisted⟩ := accepts_iff.mp h
  have hnotRun : c.ran env p = none → c.LetThrough p :=
    fun hnone => .inr (.inr (.inr (hlisted p hp hnone)))
  have hreturns : c.candidate.perBarReturns ≠ [] := by
    intro hnil
    apply hpasses.ran .power
    simp [ran, powerGate, Statistics.minTrackRecordLength, hnil]
  have hreplay : isReplay c.candidate.diagnostics.engine = true := by
    by_contra hfalse
    apply hpasses.ran .sharedRuntime
    simp [ran, sharedRuntimeGate, hfalse]
  cases p with
  | baselines => exact .inl rfl
  | drawdown => exact .inr (.inl rfl)
  | randomWalk =>
      exfalso
      have hnil : c.candidate.signalLog = [] := by simpa [supplied] using hmissing
      apply hpasses.ran .randomWalk
      simp [ran, randomWalkGate, (required_switches hp).1 rfl, hnil,
        Statistics.directionalAccuracy]
  | factorAlpha =>
      by_cases hnil : c.factorData.getD [] = []
      · apply hnotRun
        simp [ran, factorAlphaGate, hnil]
      · exact .inr (.inr (.inl ⟨rfl, hnil⟩))
  | overfitting =>
      apply hnotRun
      have hnone : given c.pboMatrix = none := by simpa [supplied] using hmissing
      simp [ran, overfittingGate, hnone]
  | superiorAbility =>
      apply hnotRun
      have hnone : given c.variantReturns = none := by simpa [supplied] using hmissing
      simp [ran, superiorAbilityGate, hnone]
  | stability =>
      apply hnotRun
      have hnil : c.paths = [] := by simpa [supplied] using hmissing
      simp [ran, stabilityGate, hnil]
  | stress =>
      apply hnotRun
      have hnone : c.stressed = none := by simpa [supplied] using hmissing
      simp [ran, stressGate, hnone]
  | deflatedSharpe =>
      exact absurd (by simpa [supplied] using hmissing) hreturns
  | power => exact absurd (by simpa [supplied] using hmissing) hreturns
  | data =>
      exfalso
      apply hpasses.ran .data
      cases hprov : c.provenance with
      | none => simp [ran, dataGate, hprov]
      | some prov =>
          have hverified : prov.verified = false := by simpa [supplied, hprov] using hmissing
          simp [ran, dataGate, hprov, hverified]
  | sharedRuntime =>
      rw [supplied, hreplay] at hmissing
      cases hmissing
  | forward =>
      exfalso
      apply hpasses.ran .forward
      cases hfwd : c.forward with
      | none => simp [ran, forwardGate, hfwd]
      | some fwd =>
          have hverified : fwd.verified = false := by simpa [supplied, hfwd] using hmissing
          simp [ran, forwardGate, hfwd, hverified]
  | integrity =>
      exfalso
      have hempty : c.candidate.diagnostics = {} := by simpa [supplied] using hmissing
      rw [hempty] at hreplay
      revert hreplay
      decide

theorem Slips.accepts (h : c.Slips env) : Accepts env c := by
  refine accepts_iff.mpr ⟨matrixFits_iff.mpr h.fits, passes_iff.mpr ⟨h.carried, h.met⟩, ?_⟩
  intro p hp hnone
  have hmissing : c.supplied p = false := by
    apply Bool.eq_false_of_not_eq_true
    intro hsupplied
    exact ran_ne_none hp hsupplied hnone
  rcases h.through p hp hmissing with rfl | rfl | ⟨rfl, hfactors⟩ | hcarried
  · cases hnone
  · cases hnone
  · simp [ran, factorAlphaGate, (required_switches hp).2 rfl, hfactors] at hnone
  · exact hcarried

theorem slips_of_accepts (h : Accepts env c) (hgap : ∃ p ∈ c.rc.required, c.supplied p = false) :
    c.Slips env := by
  obtain ⟨hfits, hpasses, -⟩ := accepts_iff.mp h
  exact ⟨matrixFits_iff.mp hfits, hpasses.carried, (passes_iff.mp hpasses).2, hgap,
    fun p hp hmissing => letThrough_of_accepts h hp hmissing⟩

/-! ## Withholding -/

theorem rc_withhold (w : Argument) : (c.withhold w).rc = c.rc := by
  cases w <;> rfl

theorem carriedGate_withhold (w : Argument) (g : Gate) :
    (c.withhold w).CarriedGate g ↔ c.CarriedGate g := by
  cases w <;> exact Iff.rfl

variable {w : Argument}

theorem ran_withhold (hp : p ∉ w.feeds) : (c.withhold w).ran env p = c.ran env p := by
  cases w <;> cases p <;> first | rfl | simp [Argument.feeds] at hp

theorem paths_withhold : (c.withhold .cpcvPathReturns).paths = [] := ite_self _

theorem ran_withhold_none (h : c.ran env p = none) : (c.withhold w).ran env p = none := by
  by_cases hp : p ∈ w.feeds
  · cases w with
    | baselines =>
        obtain rfl : p = .baselines := by simpa [Argument.feeds] using hp
        cases h
    | cpcvPathReturns =>
        obtain rfl | rfl : p = .stability ∨ p = .drawdown := by simpa [Argument.feeds] using hp
        · simp [ran, stabilityGate, paths_withhold]
        · cases h
    | stressed =>
        obtain rfl : p = .stress := by simpa [Argument.feeds] using hp
        rfl
    | variantReturns =>
        obtain rfl | rfl : p = .superiorAbility ∨ p = .deflatedSharpe := by
          simpa [Argument.feeds] using hp
        · rfl
        · cases h
    | pboMatrix =>
        obtain rfl | rfl : p = .overfitting ∨ p = .deflatedSharpe := by
          simpa [Argument.feeds] using hp
        · rfl
        · cases h
    | factorData =>
        obtain rfl : p = .factorAlpha := by simpa [Argument.feeds] using hp
        simp [ran, factorAlphaGate, withhold]
    | provenance =>
        obtain rfl : p = .data := by simpa [Argument.feeds] using hp
        cases h
    | forward =>
        obtain rfl : p = .forward := by simpa [Argument.feeds] using hp
        cases h
  · rw [ran_withhold hp, h]

theorem supplied_withhold (w : Argument) : (c.withhold w).supplied w.gate = false := by
  cases w with
  | cpcvPathReturns => simp [supplied, Argument.gate, paths_withhold]
  | _ => simp [withhold, supplied, Argument.gate, given]

theorem gap_withhold (hw : w.gate ∈ c.rc.required) :
    ∃ p ∈ (c.withhold w).rc.required, (c.withhold w).supplied p = false := by
  rw [rc_withhold]
  exact ⟨w.gate, hw, supplied_withhold w⟩

theorem required_gate (hw : w ≠ .factorData) : w.gate ∈ c.rc.required := by
  rw [ResearchConfig.required, List.mem_filter]
  cases w <;> first | exact absurd rfl hw | exact ⟨by decide, rfl⟩

theorem ran_withhold_factorData (h : c.rc.requireFactorAlpha = false) (p : ProtocolGate) :
    (c.withhold .factorData).ran env p = c.ran env p := by
  by_cases hp : p ∈ Argument.factorData.feeds
  · obtain rfl : p = .factorAlpha := by simpa [Argument.feeds] using hp
    have hrc : (c.withhold .factorData).rc.requireFactorAlpha = false := h
    simp [ran, factorAlphaGate, h, hrc]
  · exact ran_withhold hp

end EvaluateCall

/-! ## When acceptances rest on evidence -/

open EvaluateCall

theorem accepts_of_withhold {env : AcceptanceEnv δ} {c : EvaluateCall δ} {w : Argument}
    (h : Accepts env (c.withhold w)) (hfits : c.matrixFits = true)
    (hfeeds : ∀ p ∈ w.feeds, c.ran env p ≠ some false) : Accepts env c := by
  obtain ⟨-, hpasses, hlisted⟩ := accepts_iff.mp h
  refine accepts_iff.mpr ⟨hfits, ⟨?_, ?_⟩, ?_⟩
  · intro g hg
    exact hpasses.carried g ((carriedGate_withhold w g).mpr hg)
  · intro p
    by_cases hp : p ∈ w.feeds
    · exact hfeeds p hp
    · rw [← ran_withhold hp]
      exact hpasses.ran p
  · intro p hp hnone
    have hcarried := hlisted p (by rwa [rc_withhold]) (ran_withhold_none hnone)
    have henvironment : (c.withhold w).environment = c.environment := by cases w <;> rfl
    rwa [henvironment] at hcarried

/-- Acceptances rest on evidence, and nothing is gained by withholding any,
exactly for the calls that do not slip, with or without one of their arguments:
where the call without an argument would slip, the argument meets what the gates
that read it ask. -/
theorem evidenceKept_iff (env : AcceptanceEnv δ) (c : EvaluateCall δ) :
    EvidenceKept env c ↔
      ¬c.Slips env ∧ ∀ w, (c.withhold w).Slips env →
        c.MatrixFits ∧ ∀ p ∈ w.feeds, c.Tried p → c.Criterion env p := by
  constructor
  · intro h
    constructor
    · intro hslips
      obtain ⟨p, hp, hmissing⟩ := hslips.gap
      rw [(h.earned hslips.accepts p hp).1] at hmissing
      cases hmissing
    · intro w hslips
      obtain ⟨hfits, hpasses, -⟩ := accepts_iff.mp (h.withheld w hslips.accepts)
      exact ⟨matrixFits_iff.mp hfits, fun p _ => ran_ne_false_iff.mp (hpasses.ran p)⟩
  · rintro ⟨hslips, hwithheld⟩
    constructor
    · intro haccepts p hp
      have hsupplied : c.supplied p = true := by
        by_contra hmissing
        exact hslips (slips_of_accepts haccepts ⟨p, hp, by simpa using hmissing⟩)
      have hne : c.ran env p ≠ none := ran_ne_none hp hsupplied
      obtain ⟨passed, hran⟩ := Option.ne_none_iff_exists'.mp hne
      have hpassed : passed = true := by
        apply Bool.eq_true_of_not_eq_false
        rintro rfl
        exact (accepts_iff.mp haccepts).2.1.ran p hran
      exact ⟨hsupplied, hran.trans (congrArg some hpassed),
        ((exact_ran p).passed_iff passed hran).mp hpassed⟩
    · intro w haccepts
      by_cases hw : w.gate ∈ c.rc.required
      · obtain ⟨hfits, hfeeds⟩ := hwithheld w (slips_of_accepts haccepts (gap_withhold hw))
        exact accepts_of_withhold haccepts (matrixFits_iff.mpr hfits)
          fun p hp => ran_ne_false_iff.mpr (hfeeds p hp)
      · obtain rfl : w = .factorData := by
          by_contra hne
          exact hw (required_gate hne)
        have hoff : c.rc.requireFactorAlpha = false := by
          by_contra htrue
          apply hw
          rw [ResearchConfig.required, List.mem_filter]
          refine ⟨by decide, ?_⟩
          exact Bool.eq_true_of_not_eq_false htrue
        obtain ⟨hfits, hpasses, -⟩ := accepts_iff.mp haccepts
        apply accepts_of_withhold haccepts hfits
        intro p _
        rw [← ran_withhold_factorData hoff]
        exact hpasses.ran p

/-! ### Baselines

Forty returns of 0.3 % and 0.1 % in turn, with everything but a baseline to
compare them with. -/

def fortyOf (pattern : List ℚ) : List FloatValue :=
  (List.range 40).map fun i => .finite (pattern.getD (i % pattern.length) 0)

def alternating : List FloatValue := fortyOf [3 / 1000, 1 / 1000]

def alternatingStatistics : Statistics where
  sharpeRatio _ _ := .finite (3135 / 100)
  directionalP _ := .finite 0
  rawMean _ := { alphaPerPeriod := .finite (2 / 1000), alphaP := .finite 0 }
  regression _ _ := { alphaPerPeriod := .finite (2 / 1000), alphaP := .finite 0 }
  pbo _ _ := .finite 0
  deflatedSharpe _ _ _ _ := .finite 1
  hansenSpaP _ := .finite 0
  minTrackRecord _ _ _ := some (.finite (224 / 100))
  pathDrawdown _ := .finite 0
  fraction k n := .finite (k / n)
  round6 x := x
  sampleVariance _ := .finite 0
  format0 _ := "2"

def alternatingEnv : AcceptanceEnv String where
  statistics := alternatingStatistics
  authority :=
    { sourceDigest := "5f70bf18a086007016e948b04aed3b82103a36bea41755b6cddfaf10ace3c6ef"
      fileSha256 := fun _ => none
      digest := fun _ => "9b74c9897bac770ffc029102a200c5de" }
  defaults :=
    { updatedAtNs := 0, agent := { rest := "\x7b\x7d" }, execution := { rest := "\x7b\x7d" }
      risk := "\x7b\x7d", news := "\x7b\x7d", research := "\x7b\x7d", others := "\x7b\x7d" }
  noParams := "\x7b\x7d"

def alternatingResult : BacktestResult String where
  performance :=
    { sharpe := .finite (3135 / 100), netReturnPct := .finite (83 / 10)
      maxDrawdownPct := .finite 0, nTrades := 40 }
  perBarReturns := alternating
  signalLog := alternating.map some
  diagnostics :=
    { engine := some "agent-replay", executionCadenceSec := some 60, decisionIntervalSec := some 60
      runtimeContextComplete := true, generationErrorCount := some 0
      instruments := some ["EUR_USD"] }
  snapshotParams := some "\x7b\x7d"
  snapshotTimeframe := some "H1"

def alternatingMatrix : NdArray where
  shape := [40, 2]
  data := (List.range 40).flatMap fun i =>
    if i % 2 = 0 then [.finite (3 / 1000), .finite (-3 / 1000)]
    else [.finite (1 / 1000), .finite (-1 / 1000)]
  length_data := by decide +kernel

def noBaselines : EvaluateCall String where
  runId := "RUN-1"
  strategyName := "trend"
  candidate := alternatingResult
  baselines := []
  cpcvPathReturns := some [alternating, alternating]
  stressed := some alternatingResult
  variantReturns := some alternatingMatrix
  pboMatrix := some alternatingMatrix
  factorData := some
    [("dollar", fortyOf [1 / 1000, 1 / 1000, -1 / 1000, -1 / 1000]),
      ("carry", fortyOf [1 / 1000, 1 / 1000, 1 / 1000, 1 / 1000,
        -1 / 1000, -1 / 1000, -1 / 1000, -1 / 1000]),
      ("momentum", fortyOf [1 / 1000, -1 / 1000, -1 / 1000, 1 / 1000])]
  dataLabel := "live-quality"
  provenance := some
    { verified := true, bidAsk := true, sha256 := [("EUR_USD.csv", "ab12")]
      costSchedule := [("commission_per_lot_round_turn", "7")], broker := "oanda" }
  forward := some
    { verified := true, nTrades := some 60, netPnl := some (.finite 240)
      runtimeHash := some "9b74c9897bac770ffc029102a200c5de"
      maxDrawdownPct := some (.finite 2) }

/-- A candidate that no baseline was run against beats the baselines. -/
theorem not_evidenceKept_noBaselines : ¬EvidenceKept alternatingEnv noBaselines := by
  intro h
  have haccepts : Accepts alternatingEnv noBaselines := by
    refine ⟨_, if_pos (by decide +kernel), ?_⟩
    rw [accepted_verdict]
    decide +kernel
  have hsupplied := (h.earned haccepts .baselines (by decide)).1
  revert hsupplied
  decide

end Sentinel.Acceptance
