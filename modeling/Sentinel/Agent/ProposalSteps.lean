import Mathlib.Tactic.NormNum
import Sentinel.Agent.Proposals

/-!
# What a proposal keeps

A proposal should move toward safety, stay within the table, differ from the
current value by at most 35 %, name no frozen path, and leave the configuration
valid.  The second and fourth hold of every proposal, and the first wherever doubles
tell the value from the current one; the other two hold exactly when neither the table
nor the rounding pushes the value past the step, and the cross-checks hold beside the
fields of the current configuration.
-/

namespace Sentinel

variable {δ : Type}

/-! ## Rounding and the table -/

namespace NumberSpec

/-- What the entries of the table have in common. -/
structure Sound (s : NumberSpec) : Prop where
  min_le_max : s.min ≤ s.max
  min_nonneg : 0 ≤ s.min
  round_min : s.round s.min = s.min
  round_max : s.round s.max = s.max
  higher : s.direction = .saferIsHigher → 1 / 10 ≤ s.min

variable (s : NumberSpec)

theorem grid_pos : 0 < s.grid := by
  rw [grid]
  split <;> norm_num

theorem round_mono {a b : Dec} (h : a ≤ b) : s.round a ≤ s.round b :=
  quantize_mono s.grid_pos h

variable {s : NumberSpec}

theorem Sound.clamp_mem (hs : s.Sound) (v : Dec) : s.min ≤ s.clamp v ∧ s.clamp v ≤ s.max := by
  constructor
  · calc s.min = s.round s.min := hs.round_min.symm
      _ ≤ s.clamp v := s.round_mono (le_max_left _ _)
  · calc s.clamp v ≤ s.round s.max := s.round_mono (max_le hs.min_le_max (min_le_left _ _))
      _ = s.max := hs.round_max

theorem Sound.clamp_eq (hs : s.Sound) (v : Dec) :
    s.clamp v = Max.max s.min (Min.min s.max (s.round v)) := by
  have hmono : Monotone s.round := fun _ _ h => s.round_mono h
  rw [clamp, hmono.map_max, hmono.map_min, hs.round_min, hs.round_max]

end NumberSpec

theorem RiskParam.spec_sound (q : RiskParam) : q.spec.Sound := by
  cases q <;> constructor <;> decide +kernel

/-! ## The step -/

def WithinStep (c v : Dec) : Prop := |v - c| ≤ 7 / 20 * |c|

instance (c v : Dec) : Decidable (WithinStep c v) := by
  delta WithinStep
  infer_instance

namespace NumberSpec

def limit (s : NumberSpec) (c : Dec) : Dec :=
  match s.direction with
  | .saferIsLower => c * (13 / 20)
  | .saferIsHigher => c * (27 / 20)

def limitProduct (s : NumberSpec) (c : Dec) : Dec :=
  match s.direction with
  | .saferIsLower => binary64Mul c (1 + -1 * binary64 (7 / 20))
  | .saferIsHigher => binary64Mul c (1 + 1 * binary64 (7 / 20))

def LimitKept (s : NumberSpec) (c : Dec) : Prop :=
  match s.direction with
  | .saferIsLower =>
      s.limit c ≤ s.min ∨ s.limit c ≤ s.max ∧ s.limit c ≤ s.round (s.limitProduct c)
  | .saferIsHigher =>
      s.min ≤ s.limit c ∧ (s.max ≤ s.limit c ∨ s.round (s.limitProduct c) ≤ s.limit c)

def Told (s : NumberSpec) (c v : Dec) : Prop := binary64 c = binary64 v → ¬s.Riskier c v

instance (s : NumberSpec) (c v : Dec) : Decidable (s.Told c v) := by
  delta Told
  infer_instance

variable {s : NumberSpec} {c v : Dec}

theorem told_iff (hc : 0 ≤ c) (hv : 0 ≤ v) (h : ¬s.Riskier (binary64 c) (binary64 v)) :
    s.Told c v ↔ ¬s.Riskier c v := by
  refine ⟨fun htold hriskier => ?_, fun hsafer _ => hsafer⟩
  refine htold ?_ hriskier
  cases hdir : s.direction with
  | saferIsLower =>
      simp only [Riskier, hdir, not_lt] at h hriskier
      exact (binary64_mono hc hriskier.le).antisymm h
  | saferIsHigher =>
      simp only [Riskier, hdir, not_lt] at h hriskier
      exact h.antisymm (binary64_mono hv hriskier.le)

theorem Sound.withinStep_limit_iff (hs : s.Sound) (hc : 0 ≤ c)
    (h : ¬s.Riskier c (s.clamp (s.limitProduct c))) :
    WithinStep c (s.clamp (s.limitProduct c)) ↔ s.LimitKept c := by
  rw [WithinStep, abs_of_nonneg hc]
  cases hdir : s.direction with
  | saferIsLower =>
      simp only [Riskier, hdir, not_lt] at h
      simp only [LimitKept, hdir]
      have hlimit : |s.clamp (s.limitProduct c) - c| ≤ 7 / 20 * c ↔
          s.limit c ≤ s.clamp (s.limitProduct c) := by
        rw [abs_of_nonpos (by linarith)]
        simp only [limit, hdir]
        constructor <;> intro <;> linarith
      rw [hlimit, hs.clamp_eq, le_max_iff, le_min_iff]
  | saferIsHigher =>
      simp only [Riskier, hdir, not_lt] at h
      simp only [LimitKept, hdir]
      have hlimit : |s.clamp (s.limitProduct c) - c| ≤ 7 / 20 * c ↔
          s.clamp (s.limitProduct c) ≤ s.limit c := by
        rw [abs_of_nonneg (by linarith)]
        simp only [limit, hdir]
        constructor <;> intro <;> linarith
      rw [hlimit, hs.clamp_eq, max_le_iff, min_le_iff]

end NumberSpec

namespace RiskParam

variable (q : RiskParam) {c a : Dec}

def Cut (c a : Dec) : Prop := binary64 c ≠ 0 ∧ binary64 (7 / 20) < relativeChange c a

instance (c a : Dec) : Decidable (Cut c a) := by
  delta Cut
  infer_instance

theorem limitStep_of_not_cut (h : ¬Cut c a) : q.limitStep (7 / 20) (some c) a = a := by
  simp only [limitStep]
  split_ifs with hzero hfar
  · rfl
  · exact absurd ⟨hzero, hfar⟩ h
  · exact absurd ⟨hzero, hfar⟩ h
  · rfl

theorem ne_of_cut (h : Cut c a) : binary64 a ≠ binary64 c := by
  intro hsame
  have hpos : (0 : Dec) ≤ binary64 (7 / 20) := by
    decide +kernel
  have hzero : relativeChange c a = 0 := by
    rw [relativeChange, hsame, sub_self, binary64_zero, abs_zero, zero_div, binary64_zero]
  exact absurd h.2 (by rw [hzero]; exact not_lt.mpr hpos)

theorem limitStep_of_cut (hsafer : ¬q.spec.Riskier (binary64 c) (binary64 a)) (h : Cut c a) :
    q.limitStep (7 / 20) (some c) a = q.spec.clamp (q.spec.limitProduct c) := by
  have hne := ne_of_cut h
  simp only [limitStep, if_neg h.1, if_pos h.2]
  cases hdir : q.spec.direction with
  | saferIsLower =>
      simp only [NumberSpec.Riskier, hdir] at hsafer
      simp only [NumberSpec.limitProduct, hdir, if_neg hsafer]
  | saferIsHigher =>
      simp only [NumberSpec.Riskier, hdir] at hsafer
      simp only [NumberSpec.limitProduct, hdir,
        if_pos (lt_of_le_of_ne (not_lt.mp hsafer) hne.symm)]

/-! ## The cross-checks -/

def Fits (r : RiskSettings) (q : RiskParam) (v : Dec) : Prop :=
  (q = .minStopPips → v < r.maxStopPips) ∧
    (q = .trailActivateR → 0 < v → 0 < r.breakevenTriggerR → r.breakevenTriggerR ≤ v)

theorem get_nonneg {r : RiskSettings} (hr : r.Valid) (q : RiskParam) :
    0 ≤ q.get r.toTradeRules := by
  obtain ⟨-, ⟨h1, h2, h3, h4, h5, h6, h7, h8, h9, -, -, -, h10, -⟩, -⟩ := hr
  cases q <;> simp only [get] <;> first | positivity | linarith

theorem set_inRange {t : TradeRules} (ht : t.InRange) (q : RiskParam) {v : Dec}
    (hmin : q.spec.min ≤ v) (hmax : v ≤ q.spec.max) : (q.set t v).InRange := by
  obtain ⟨h1, h2, h3, h4, h5, h6, h7, h8, h9, h10, h11, h12, h13⟩ := ht
  have hfloor : ∀ n : ℕ, v ≤ n → ⌊v⌋.toNat ≤ n := by
    intro n hn
    have hle : ⌊v⌋ ≤ (n : ℤ) := by
      exact_mod_cast (Int.floor_le v).trans hn
    omega
  cases q <;> simp only [spec] at hmin hmax <;> simp only [set, TradeRules.InRange]
  case breakevenTriggerR => exact ⟨hmin, h2, h3, h4, h5, h6, h7, h8, h9, h10, h11, h12, h13⟩
  case partialTakeR =>
    exact ⟨h1, by linarith, h3, h4, h5, h6, h7, h8, h9, h10, h11, h12, h13⟩
  case trailAtrMultiple =>
    exact ⟨h1, h2, by linarith, h4, h5, h6, h7, h8, h9, h10, h11, h12, h13⟩
  case trailActivateR => exact ⟨h1, h2, h3, hmin, h5, h6, h7, h8, h9, h10, h11, h12, h13⟩
  case maxSpreadPipsMultiple =>
    exact ⟨h1, h2, h3, h4, by linarith, h6, h7, h8, h9, h10, h11, h12, h13⟩
  case givebackArmR =>
    exact ⟨h1, h2, h3, h4, h5, by linarith, h7, h8, h9, h10, h11, h12, h13⟩
  case partialTakeFraction =>
    exact ⟨h1, h2, h3, h4, h5, h6, ⟨by linarith, by linarith⟩, h8, h9, h10, h11, h12, h13⟩
  case minRewardRisk =>
    exact ⟨h1, h2, h3, h4, h5, h6, h7, by linarith, h9, h10, h11, h12, h13⟩
  case minStopPips =>
    exact ⟨h1, h2, h3, h4, h5, h6, h7, h8, by linarith, h10, h11, h12, h13⟩
  case minSecondsBetweenEntries =>
    exact ⟨h1, h2, h3, h4, h5, h6, h7, h8, h9, hfloor 86400 hmax, h11, h12, h13⟩
  case blockMinutesBeforeHighImpact =>
    exact ⟨h1, h2, h3, h4, h5, h6, h7, h8, h9, h10,
      hfloor 600 (hmax.trans (by norm_num)), h12, h13⟩
  case blockMinutesAfterHighImpact =>
    exact ⟨h1, h2, h3, h4, h5, h6, h7, h8, h9, h10, h11,
      hfloor 600 (hmax.trans (by norm_num)), h13⟩
  case givebackKeepFraction =>
    exact ⟨h1, h2, h3, h4, h5, h6, h7, h8, h9, h10, h11, h12, by linarith, by linarith⟩

theorem pos_of_withinStep {c v : Dec} (hc : 0 ≤ c) (hv : 0 < v) (h : WithinStep c v) : 0 < c := by
  rcases hc.eq_or_lt with rfl | hpos
  · rw [WithinStep, sub_zero, abs_of_pos hv, abs_zero] at h
    linarith
  · exact hpos

theorem set_coherent_iff {t : TradeRules} (ht : t.InRange) (hcoherent : t.Coherent)
    (q : RiskParam) {v : Dec} (hmin : q.spec.min ≤ v) (hsafer : ¬q.spec.Riskier (q.get t) v)
    (hstep : WithinStep (q.get t) v) : (q.set t v).Coherent ↔
      (q = .trailActivateR → 0 < v → 0 < t.breakevenTriggerR → t.breakevenTriggerR ≤ v) := by
  obtain ⟨hshort, htrail, hgiveback⟩ := hcoherent
  cases q <;> simp only [spec, get, NumberSpec.Riskier, not_lt] at hmin hsafer hstep <;>
    simp only [set, TradeRules.Coherent, reduceCtorEq, forall_const, IsEmpty.forall_iff, iff_true]
  case breakevenTriggerR =>
    refine ⟨hshort, ?_, hgiveback⟩
    intro hactive hv
    exact hsafer.trans (htrail hactive (hv.trans_le hsafer))
  case partialTakeR => exact ⟨fun _ => by linarith, htrail, hgiveback⟩
  case trailAtrMultiple => exact ⟨hshort, htrail, hgiveback⟩
  case trailActivateR => exact ⟨fun h => h.2.1, fun h => ⟨hshort, h, hgiveback⟩⟩
  case maxSpreadPipsMultiple => exact ⟨hshort, htrail, hgiveback⟩
  case givebackArmR =>
    refine ⟨hshort, htrail, ?_⟩
    intro hv
    exact hgiveback (hv.trans_le hsafer)
  case partialTakeFraction =>
    refine ⟨?_, htrail, hgiveback⟩
    intro hv
    exact hshort (pos_of_withinStep ht.2.2.2.2.2.2.1.1 hv hstep)
  case minRewardRisk => exact ⟨hshort, htrail, hgiveback⟩
  case minStopPips => exact ⟨hshort, htrail, hgiveback⟩
  case minSecondsBetweenEntries => exact ⟨hshort, htrail, hgiveback⟩
  case blockMinutesBeforeHighImpact => exact ⟨hshort, htrail, hgiveback⟩
  case blockMinutesAfterHighImpact => exact ⟨hshort, htrail, hgiveback⟩
  case givebackKeepFraction => exact ⟨hshort, htrail, fun _ => by linarith⟩

theorem set_stops_iff {r : RiskSettings} (hstops : r.minStopPips < r.maxStopPips)
    (q : RiskParam) (v : Dec) :
    (q.set r.toTradeRules v).minStopPips < r.maxStopPips ↔
      (q = .minStopPips → v < r.maxStopPips) := by
  cases q <;> simp [set, hstops]

theorem change_valid_iff {r : RiskSettings} (hr : r.Valid) (q : RiskParam) {v : Dec}
    (hmin : q.spec.min ≤ v) (hmax : v ≤ q.spec.max)
    (hsafer : ¬q.spec.Riskier (q.get r.toTradeRules) v)
    (hstep : WithinStep (q.get r.toTradeRules) v) : (r.change q v).Valid ↔ q.Fits r v := by
  obtain ⟨hrange, hrules, hcoherent, hrulesCoherent, hstops⟩ := hr
  have hset := set_inRange hrules q hmin hmax
  have hchecks := set_coherent_iff hrules hrulesCoherent q hmin hsafer hstep
  have hstopsIff := set_stops_iff hstops q v
  constructor
  · rintro ⟨-, -, -, hnew, hnewStops⟩
    exact ⟨hstopsIff.1 hnewStops, hchecks.1 hnew⟩
  · rintro ⟨hfit, hfit'⟩
    exact ⟨hrange, hset, hcoherent, hchecks.2 hfit', hstopsIff.2 hfit⟩

end RiskParam

/-! ## What is returned -/

namespace RiskParam

theorem bounded_spec (q : RiskParam) {c x v alpha : Dec} {f : PatternFinding}
    (h : q.bounded (some c) x f (7 / 20) alpha = .ok v) :
    v = q.limitStep (7 / 20) (some c) (q.spec.clamp x) ∧
      ¬q.spec.Riskier (binary64 c) (binary64 (q.spec.clamp x)) ∧
      ¬q.spec.Riskier (binary64 c) (binary64 v) := by
  simp only [bounded, guardDirection] at h
  by_cases hfirst : q.spec.Riskier (binary64 c) (binary64 (q.spec.clamp x))
  · rw [if_pos hfirst] at h
    cases h
  · rw [if_neg hfirst] at h
    cases hgate : f.gate alpha with
    | error e =>
        rw [hgate] at h
        cases h
    | ok _ =>
        cases hdry : q.dryRun (q.spec.clamp x) with
        | error e =>
            rw [hgate, hdry] at h
            cases h
        | ok _ =>
            rw [hgate, hdry] at h
            by_cases hlast : q.spec.Riskier (binary64 c)
                (binary64 (q.limitStep (7 / 20) (some c) (q.spec.clamp x)))
            · simp only [hlast, if_true] at h
              cases h
            · simp only [hlast, if_false] at h
              obtain rfl : q.limitStep (7 / 20) (some c) (q.spec.clamp x) = v :=
                Except.ok.inj h
              exact ⟨rfl, hfirst, hlast⟩

theorem limitStep_mem (q : RiskParam) (current : Option Dec) (m x : Dec) :
    q.spec.min ≤ q.limitStep m current (q.spec.clamp x) ∧
      q.limitStep m current (q.spec.clamp x) ≤ q.spec.max := by
  have hmem := q.spec_sound.clamp_mem
  cases current with
  | none => exact hmem x
  | some c =>
      simp only [limitStep]
      split_ifs
      · exact hmem x
      · exact hmem _
      · exact hmem _
      · exact hmem x

structure Kept (r : RiskSettings) (q : RiskParam) (v : Dec) : Prop where
  safer : ¬q.spec.Riskier (q.get r.toTradeRules) v
  inTable : q.spec.min ≤ v ∧ v ≤ q.spec.max
  step : WithinStep (q.get r.toTradeRules) v
  valid : (r.change q v).Valid

/-- The value asked for, in the table and rounded, is kept and within the step; or it is
cut to the step and the limit is kept.  Either way the value goes with the fields beside
it, and doubles tell it from the current one. -/
def Reaches (r : RiskSettings) (q : RiskParam) (x : Dec) : Prop :=
  let c := q.get r.toTradeRules
  let asked := q.spec.clamp x
  let cut := q.spec.clamp (q.spec.limitProduct c)
  ¬Cut c asked ∧ q.spec.Told c asked ∧ WithinStep c asked ∧ q.Fits r asked ∨
    Cut c asked ∧ q.spec.Told c cut ∧ q.spec.LimitKept c ∧ q.Fits r cut

theorem kept_iff_of_safer {r : RiskSettings} (hr : r.Valid) (q : RiskParam) {v : Dec}
    (hmem : q.spec.min ≤ v ∧ v ≤ q.spec.max)
    (hsafer : ¬q.spec.Riskier (binary64 (q.get r.toTradeRules)) (binary64 v)) :
    q.Kept r v ↔ q.spec.Told (q.get r.toTradeRules) v ∧
      WithinStep (q.get r.toTradeRules) v ∧ q.Fits r v := by
  have htold := NumberSpec.told_iff (get_nonneg hr q)
    (q.spec_sound.min_nonneg.trans hmem.1) hsafer
  constructor
  · intro hkept
    exact ⟨htold.mpr hkept.safer, hkept.step,
      (change_valid_iff hr q hmem.1 hmem.2 hkept.safer hkept.step).mp hkept.valid⟩
  · rintro ⟨hdoubles, hstep, hfit⟩
    have hexact := htold.mp hdoubles
    exact ⟨hexact, hmem, hstep, (change_valid_iff hr q hmem.1 hmem.2 hexact hstep).mpr hfit⟩

theorem kept_iff {r : RiskSettings} (hr : r.Valid) (q : RiskParam) {x v alpha : Dec}
    {f : PatternFinding}
    (h : q.bounded (some (q.get r.toTradeRules)) x f (7 / 20) alpha = .ok v) :
    q.Kept r v ↔ q.Reaches r x := by
  obtain ⟨hv, hfirst, hlast⟩ := q.bounded_spec h
  have hmem : q.spec.min ≤ v ∧ v ≤ q.spec.max := by
    rw [hv]
    exact q.limitStep_mem _ _ x
  rw [kept_iff_of_safer hr q hmem hlast, Reaches]
  by_cases hcut : Cut (q.get r.toTradeRules) (q.spec.clamp x)
  · have hlimit := hv.trans (q.limitStep_of_cut hfirst hcut)
    subst hlimit
    simp only [hcut, not_true_eq_false, false_and, true_and, false_or]
    refine and_congr_right fun htold => and_congr_left fun _ => ?_
    refine q.spec_sound.withinStep_limit_iff (get_nonneg hr q) ?_
    exact (NumberSpec.told_iff (get_nonneg hr q)
      (q.spec_sound.min_nonneg.trans hmem.1) hlast).mp htold
  · have hasked := hv.trans (q.limitStep_of_not_cut hcut)
    subst hasked
    simp only [hcut, not_false_eq_true, false_and, true_and, or_false]

end RiskParam

/-! ## Proposals -/

/-- A proposal keeps what is promised: on a field of the risk settings, and on a
strategy's parameters that they are parameters within the step, whatever is
taken as a step between two of them. -/
structure ParamProposal.Kept (close : δ → δ → Prop) (config : ProposalConfig δ)
    (p : ParamProposal δ) :
    Prop where
  notFrozen : p.path ∉ frozenPaths
  onRisk : ∀ q, ProposalPath.ofString p.path = some (.risk q) →
    ∃ v, p.proposedValue = .number v ∧ q.Kept config.risk v
  onParams : ProposalPath.ofString p.path = some .strategyParams →
    ∃ d, p.proposedValue = .params d ∧ close config.params d

structure RequestReaches (close : δ → δ → Prop) (config : ProposalConfig δ) (path : String)
    (requested : ProposalValue δ) : Prop where
  onRisk : ∀ q, ProposalPath.ofString path = some (.risk q) →
    ∀ x, requested = .number x → q.Reaches config.risk x
  onParams : ProposalPath.ofString path = some .strategyParams →
    ∃ d, requested = .params d ∧ close config.params d

theorem propose_spec {nowNs : ℕ} {path : String} {current : Option (ProposalValue δ)}
    {requested : ProposalValue δ} {f : PatternFinding} {strategy : Option String}
    {limits : ProposalLimits} {p : ParamProposal δ}
    (h : propose nowNs path current requested f strategy limits = .ok p) :
    path ∉ frozenPaths ∧ p.path = path ∧ p.status = .pending ∧
      ∃ target, ProposalPath.ofString path = some target ∧
      target.bounded current requested f limits.maxRelativeChange limits.alpha =
        .ok p.proposedValue := by
  rw [propose] at h
  by_cases hfrozen : path ∈ frozenPaths
  · rw [if_pos hfrozen] at h
    cases h
  · rw [if_neg hfrozen] at h
    split at h
    · cases h
    · rename_i target htarget
      by_cases hthin : f.n < limits.minSample
      · rw [if_pos hthin] at h
        cases h
      · rw [if_neg hthin] at h
        cases hvalue : target.bounded current requested f limits.maxRelativeChange limits.alpha with
        | error e =>
            rw [hvalue] at h
            cases h
        | ok v =>
            rw [hvalue] at h
            obtain rfl := Except.ok.inj h
            exact ⟨hfrozen, rfl, rfl, target, htarget, hvalue⟩

theorem ProposalPath.bounded_strategyParams {current : Option (ProposalValue δ)}
    {requested value : ProposalValue δ} {f : PatternFinding} {m alpha : Dec}
    (h : ProposalPath.bounded current requested f m alpha .strategyParams = .ok value) :
    value = requested := by
  rw [bounded] at h
  cases hgate : f.gate alpha with
  | error e =>
      rw [hgate] at h
      cases h
  | ok _ =>
      rw [hgate] at h
      exact (Except.ok.inj h).symm

theorem ProposalPath.bounded_risk {q : RiskParam} {current : Option (ProposalValue δ)}
    {requested value : ProposalValue δ} {f : PatternFinding} {m alpha : Dec}
    (h : ProposalPath.bounded current requested f m alpha (.risk q) = .ok value) :
    ∃ x v, requested = .number x ∧ value = .number v ∧
      q.bounded (current.bind ProposalValue.number?) x f m alpha = .ok v := by
  cases requested with
  | params d => cases h
  | number x =>
      simp only [bounded] at h
      cases hv : q.bounded (current.bind ProposalValue.number?) x f m alpha with
      | error e =>
          rw [hv] at h
          cases h
      | ok v =>
          rw [hv] at h
          exact ⟨x, v, rfl, (Except.ok.inj h).symm, hv⟩

theorem ProposalConfig.get?_risk (config : ProposalConfig δ) {path : String} {q : RiskParam}
    (h : ProposalPath.ofString path = some (.risk q)) :
    config.get? path = some (.number (q.get config.risk.toTradeRules)) := by
  rw [get?, h]

/-- A proposal for the current configuration keeps what is promised exactly when
the request reaches such a value. -/
theorem propose_kept_iff (close : δ → δ → Prop) {config : ProposalConfig δ}
    (hvalid : config.risk.Valid) {nowNs : ℕ} {path : String} {requested : ProposalValue δ}
    {f : PatternFinding} {strategy : Option String} {ttlDays minSample : ℕ} {alpha : Dec}
    {p : ParamProposal δ}
    (h : propose nowNs path (config.get? path) requested f strategy
      { ttlDays, minSample, alpha } = .ok p) :
    p.Kept close config ↔ RequestReaches close config path requested := by
  obtain ⟨hfrozen, hpath, -, target, htarget, hvalue⟩ := propose_spec h
  cases target with
  | strategyParams =>
      have hsame := ProposalPath.bounded_strategyParams hvalue
      constructor
      · intro hkept
        refine ⟨?_, ?_⟩
        · intro q hq
          cases htarget.symm.trans hq
        · intro _
          rw [← hsame]
          exact hkept.onParams (by rw [hpath]; exact htarget)
      · intro hreach
        refine ⟨by rw [hpath]; exact hfrozen, ?_, ?_⟩
        · intro q hq
          rw [hpath] at hq
          cases htarget.symm.trans hq
        · intro _
          rw [hsame]
          exact hreach.onParams htarget
  | risk q =>
      obtain ⟨x, v, hx, hv, hbounded⟩ := ProposalPath.bounded_risk hvalue
      rw [config.get?_risk htarget] at hbounded
      have hiff := RiskParam.kept_iff hvalid q hbounded
      constructor
      · intro hkept
        refine ⟨?_, ?_⟩
        · intro q' hq' x' hx'
          obtain rfl : q = q' := by simpa [htarget] using hq'
          obtain rfl : x = x' := by simpa [hx] using hx'
          obtain ⟨v', hv', hrisk⟩ := hkept.onRisk q (by rw [hpath]; exact htarget)
          obtain rfl : v = v' := by simpa [hv] using hv'
          exact hiff.1 hrisk
        · intro hparams
          cases htarget.symm.trans hparams
      · intro hreach
        refine ⟨by rw [hpath]; exact hfrozen, ?_, ?_⟩
        · intro q' hq'
          rw [hpath] at hq'
          obtain rfl : q = q' := by simpa [htarget] using hq'
          exact ⟨v, hv, hiff.2 (hreach.onRisk q htarget x hx)⟩
        · intro hparams
          rw [hpath] at hparams
          cases htarget.symm.trans hparams

/-- The spread gate is tightened from 2.5 to 2. -/
theorem propose_kept_iff_spread :
    let config : ProposalConfig Unit := ⟨{}, ()⟩
    let finding : PatternFinding :=
      { pattern := "tag:entry_slippage", n := 60, meanDeltaR := -(1 / 2), pValue := 1 / 1000 }
    ∃ p, propose 0 "risk.max_spread_pips_multiple"
        (config.get? "risk.max_spread_pips_multiple") (.number 2) finding none {} = .ok p ∧
      p.proposedValue = .number 2 ∧ p.Kept (fun _ _ => True) config := by
  intro config finding
  let p : ParamProposal Unit :=
    { id := "P0", createdNs := 0, path := "risk.max_spread_pips_multiple"
      currentValue := some (.number (5 / 2)), proposedValue := .number 2
      expiresNs := 21 * 86400 * 1000000000 }
  have hp : propose 0 "risk.max_spread_pips_multiple"
      (config.get? "risk.max_spread_pips_multiple") (.number 2) finding none {} = .ok p := by
    decide +kernel
  refine ⟨p, hp, rfl, (propose_kept_iff _ (by decide +kernel) hp).mpr ⟨?_, ?_⟩⟩
  · intro q hq x hx
    obtain rfl : RiskParam.maxSpreadPipsMultiple = q := by simpa using (show
      some (ProposalPath.risk .maxSpreadPipsMultiple) = some (.risk q) from hq)
    obtain rfl : (2 : Dec) = x := by simpa using hx
    refine Or.inl ⟨by decide +kernel, by decide +kernel, by decide +kernel, ?_⟩
    exact ⟨nofun, nofun⟩
  · intro hparams
    exact absurd hparams (by decide +kernel)

/-! ## The learning loop -/

/-- Trades near the news do badly, and two minutes are blocked before it: five
are proposed. -/
theorem not_kept_blockMinutes :
    let config : ProposalConfig Unit := ⟨{ blockMinutesBeforeHighImpact := 2 }, ()⟩
    let finding : PatternFinding :=
      { pattern := "tag:news_adjacent", n := 60, meanDeltaR := -(1 / 2), pValue := 1 / 1000
        pValueAdjusted := 1 / 1000, significant := true, nTestsInFamily := 5
        diagnosis := "parameter" }
    config.risk.Valid ∧ ∃ p ∈ deriveProposals 0 [finding] config none {} (1 / 10),
      ¬p.Kept (fun _ _ => True) config := by
  intro config finding
  let p : ParamProposal Unit :=
    { id := "P0", createdNs := 0, path := "risk.block_minutes_before_high_impact"
      currentValue := some (.number 2), proposedValue := .number 5
      expiresNs := 21 * 86400 * 1000000000 }
  refine ⟨by decide +kernel, p, by decide +kernel, ?_⟩
  intro hkept
  obtain ⟨v, hv, hrisk⟩ := hkept.onRisk .blockMinutesBeforeHighImpact rfl
  obtain rfl : (5 : Dec) = v := by simpa [p] using hv
  have hstep := hrisk.step
  norm_num [WithinStep, RiskParam.get, config] at hstep

end Sentinel
