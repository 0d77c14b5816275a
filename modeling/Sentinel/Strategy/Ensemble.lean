import Sentinel.Risk.Exposure
import Sentinel.Strategy.PairAlignment

/-!
# The ensemble

Several strategies vote on one signal.  The answers of a row are kept until
another row is asked for, since an answer needs to know which other instruments
fire on that row.
-/

namespace Sentinel

open Float64 Series

variable {F : Type} [Float64 F]

/-! ## The least by a key -/

/-- `min(xs, key=key)`: the first one whose key no later key is below. -/
def firstLeast (key : F → F) : List F → Option F
  | [] => none
  | x :: xs => some (xs.foldl (fun cur y => if lt (key y) (key cur) then y else cur) x)

theorem foldl_least_mem (key : F → F) (xs : List F) (x : F) :
    xs.foldl (fun cur y => if lt (key y) (key cur) then y else cur) x ∈ x :: xs := by
  induction xs generalizing x with
  | nil => exact List.mem_cons_self
  | cons y xs ih =>
    rw [List.foldl_cons]
    have hmem := ih (if lt (key y) (key x) then y else x)
    split_ifs at hmem ⊢
    · exact List.mem_cons_of_mem x hmem
    · rcases List.mem_cons.mp hmem with heq | hlater
      · rw [heq]
        exact List.mem_cons_self
      · exact List.mem_cons_of_mem x (List.mem_cons_of_mem y hlater)

section Order

variable (htrans : ∀ a b c : F, lt a b = true → lt b c = true → lt a c = true)
  (hirrefl : ∀ a : F, lt a a = false)

include htrans in
/-- What is below no value seen so far stays below none. -/
theorem not_lt_foldl_least (key : F → F) (xs : List F) {x z : F}
    (h : lt (key z) (key x) = false) :
    lt (key z) (key (xs.foldl (fun cur y => if lt (key y) (key cur) then y else cur) x)) =
      false := by
  induction xs generalizing x with
  | nil => exact h
  | cons y xs ih =>
    rw [List.foldl_cons]
    apply ih
    split_ifs with hlt
    · by_contra hbelow
      rw [Bool.not_eq_false] at hbelow
      rw [htrans _ _ _ hbelow hlt] at h
      exact Bool.noConfusion h
    · exact h

include htrans hirrefl in
theorem not_lt_firstLeast {key : F → F} {xs : List F} {least z : F}
    (h : firstLeast key xs = some least) (hz : z ∈ xs) : lt (key z) (key least) = false := by
  rcases xs with _ | ⟨x, xs⟩
  · exact absurd hz List.not_mem_nil
  · rw [firstLeast, Option.some.injEq] at h
    subst h
    rcases List.mem_cons.mp hz with rfl | hz
    · exact not_lt_foldl_least htrans key xs (hirrefl _)
    · obtain ⟨before, after, rfl⟩ := List.append_of_mem hz
      rw [List.foldl_append, List.foldl_cons]
      apply not_lt_foldl_least htrans
      split_ifs with hlt
      · exact hirrefl _
      · exact Bool.eq_false_iff.mpr hlt

end Order

theorem mem_of_firstLeast {key : F → F} {xs : List F} {least : F}
    (h : firstLeast key xs = some least) : least ∈ xs := by
  rcases xs with _ | ⟨x, xs⟩
  · cases h
  · rw [firstLeast, Option.some.injEq] at h
    rw [← h]
    exact foldl_least_mem key xs x

namespace Ensemble

/-! ## Members and their votes -/

/-- A member's signal, as far as the ensemble reads it. -/
structure MemberSignal (F : Type) where
  strategy : String
  side : Option Side
  strength : F
  stopPrice : Option F
  targetPrice : Option F := none

/-- A signal with a side and a stop. -/
structure Ballot (F : Type) where
  strategy : String
  side : Side
  strength : F
  stopPrice : F
  targetPrice : Option F

omit [Float64 F] in
def MemberSignal.ballot? (s : MemberSignal F) : Option (Ballot F) :=
  match s.side, s.stopPrice with
  | some side, some stopPrice => some ⟨s.strategy, side, s.strength, stopPrice, s.targetPrice⟩
  | _, _ => none

/-- A member: what it declares, and its signals after `prepare`; one that fails
on a row has none. -/
structure Member (F : Type) where
  name : String
  timeframe : String := "H1"
  requiredHistory : ℕ := 0
  horizonBars : ℤ
  reference : Bool := false
  generate : Dict String (Frame F) → String → ℕ → Option (MemberSignal F)

inductive Weighting where
  | equal
  | equalRisk
  deriving DecidableEq

/-- `default_params`. -/
structure Settings (F : Type) [Float64 F] where
  weighting : Weighting := .equalRisk
  minNetVote : F := ofRat (1 / 10)
  referenceRiskAtr : F := ofRat 2
  minAgreement : ℕ := 1
  correlationWindow : ℕ := 120
  correlationThreshold : F := ofRat (7 / 10)
  minRewardRisk : F := ofRat (6 / 5)

end Ensemble

open Ensemble in
/-- A combination that `__init__` lets through; the weights sum to one. -/
structure Ensemble (F : Type) [Float64 F] where
  members : List (Member F)
  weights : Dict String F
  settings : Settings F
  nodup : (members.map Member.name).Nodup
  noReference : ∀ m ∈ members, m.reference = false
  agreement_pos : 1 ≤ settings.minAgreement
  agreement_le : settings.minAgreement ≤ members.length

namespace Ensemble

/-! ## Building one -/

/-- Why a combination is refused. -/
inductive Refusal where
  | noMember
  | duplicateMembers (names : List String)
  | referenceMember (name : String)
  | minNetVote
  | referenceRiskAtr
  | minAgreement
  | negativeWeight
  | zeroWeights
  deriving DecidableEq

/-- The weights as they are given, one for a member that is not named. -/
def givenWeights (names : List String) (weights : Dict String F) : Dict String F :=
  .ofEntries (names.map fun n => (n, weights.getD n (ofRat 1)))

/-- `__init__`. -/
def build (members : List (Member F)) (weights : Dict String F) (settings : Settings F) :
    Except Refusal (Ensemble F) :=
  let names := members.map Member.name
  if members = [] then .error .noMember
  else if hnodup : ¬ names.Nodup then .error (.duplicateMembers names)
  else
    match href : members.find? Member.reference with
    | some m => .error (.referenceMember m.name)
    | none =>
      if !(lt (ofRat 0) settings.minNetVote && le settings.minNetVote (ofRat 1)) then
        .error .minNetVote
      else if le settings.referenceRiskAtr (ofRat 0) then .error .referenceRiskAtr
      else if hagree : ¬ (1 ≤ settings.minAgreement ∧ settings.minAgreement ≤ members.length) then
        .error .minAgreement
      else
        let given := givenWeights names weights
        if given.values.any fun w => lt w (ofRat 0) then .error .negativeWeight
        else if le (total given.values) (ofRat 0) then .error .zeroWeights
        else
          .ok
            { members
              weights := given.mapValues fun w => w / total given.values
              settings
              nodup := not_not.mp hnodup
              noReference := fun m hm => by
                simpa using List.find?_eq_none.mp href m hm
              agreement_pos := (not_not.mp hagree).1
              agreement_le := (not_not.mp hagree).2 }

variable (e : Ensemble F)

def name : String :=
  "ensemble[" ++ "+".intercalate (sortedNames (e.members.map Member.name)) ++ "]"

/-- `warmup`: the longest history of a member, and at least the ensemble's own. -/
def requiredHistory : ℕ := (e.members.map Member.requiredHistory).foldl max 320

def timeframe : String := (e.members.head?.map Member.timeframe).getD ""

def horizonBars : ℤ := ((e.members.map Member.horizonBars).max?).getD 0

/-! ## The vote -/

variable (data : Dict String (Frame F)) (instrument : String) (i : ℕ)

/-- `_member_signals`. -/
def ballots : List (Ballot F) :=
  e.members.filterMap fun m => (m.generate data instrument i).bind MemberSignal.ballot?

/-- `np.clip(x, 0.25, 4.0)`. -/
def clipRatio (x : F) : F :=
  if lt x (ofRat (1 / 4)) then ofRat (1 / 4) else if lt (ofRat 4) x then ofRat 4 else x

/-- `_vote`: the contribution of a member, for the risk of its stop. -/
def vote (close atrValue : F) (b : Ballot F) : F :=
  let w := e.weights.getD b.strategy (ofRat 0)
  let strength := w * sideSign b.side * b.strength
  match e.settings.weighting with
  | .equal => strength
  | .equalRisk =>
      let risk :=
        if lt (ofRat 0) atrValue then Float64.abs (close - b.stopPrice) / atrValue else ofRat 0
      if le risk (ofRat 0) then ofRat 0
      else strength * clipRatio (e.settings.referenceRiskAtr / risk)

def agreeing (side : Side) (fired : List (Ballot F)) : List (Ballot F) :=
  fired.filter fun b => b.side = side

/-- The prices of the agreeing members, made one signal. -/
def settle (fired : List (Ballot F)) (close a net : F) : Option (StrategySignal F) :=
  let side : Side := if lt (ofRat 0) net then .buy else .sell
  let agree := agreeing side fired
  if agree.length < e.settings.minAgreement then none
  else
    let order := fun price => sideSign side * price
    (firstLeast order (agree.map Ballot.stopPrice)).bind fun stop =>
      (firstLeast order (agree.filterMap Ballot.targetPrice)).bind fun target =>
        levelSignal
          { strategy := e.name
            instrument
            side
            strength := pyMin (ofRat 1) (Float64.abs net)
            horizonBars := e.horizonBars
            timeframe := e.timeframe
            features := [("net_vote", net), ("members_agreeing", ofRat agree.length),
              ("members_firing", ofRat fired.length), ("atr", a)] }
          close stop target e.settings.minRewardRisk

/-- `_combine`, on the frames that were prepared. -/
def combine : Option (StrategySignal F) :=
  (data.get? instrument).bind fun df =>
    if df.length ≤ i then none
    else
      let fired := e.ballots data instrument i
      let close := (df.bars i).close
      let a := Indicators.atr df.bars 14 i
      if fired = [] then none
      else if !isFinite a || le a (ofRat 0) then none
      else
        let net := total (fired.map (e.vote close a))
        if lt (Float64.abs net) e.settings.minNetVote then none
        else e.settle instrument fired close a net

/-- `_cluster_size`. -/
def clusterSize (firing : List String) : ℕ :=
  if firing.length < 2 then 1
  else
    let correlations := (clusterCorr e.settings.correlationWindow data firing i).map fun c =>
      (c.1, toRat c.2)
    let clusters := correlationClusters firing (.ofEntries (firing.map fun s => (s, 1)))
      (.ofEntries correlations) (toRat e.settings.correlationThreshold)
    ((clusters.find? fun c => instrument ∈ c.instruments).map fun c => c.instruments.length).getD 1

/-- A signal of a correlated group is damped. -/
def damp (firing : List String) (combined : StrategySignal F) : StrategySignal F :=
  let size := e.clusterSize data instrument i firing
  if 1 < size then
    { combined with
      strength := pyMax (ofRat (1 / 20)) (combined.strength / ofRat size)
      features := combined.features ++ [("correlation_cluster_size", ofRat size)] }
  else combined

/-! ## The answers that are kept -/

/-- `_vote_cache`. -/
structure Memo (F : Type) where
  index : ℤ := -1
  cached : Dict String (Option (StrategySignal F)) := .empty

def fill (cached : Dict String (Option (StrategySignal F))) (sym : String) :
    Dict String (Option (StrategySignal F)) :=
  cached.setDefault sym (e.combine data sym i)

omit [Float64 F] in
/-- The instruments with a signal. -/
def firing (cached : Dict String (Option (StrategySignal F))) : List String :=
  sortedNames ((cached.keep fun _ v => v.isSome).keys)

/-- `generate`. -/
def generate (memo : Memo F) : Option (StrategySignal F) × Memo F :=
  if i < e.requiredHistory then (none, memo)
  else
    let cached := e.fill data i (if memo.index = i then memo.cached else .empty) instrument
    match cached.getD instrument none with
    | none => (none, ⟨i, cached⟩)
    | some combined =>
        let cached := data.keys.foldl (e.fill data i) cached
        (some (e.damp data instrument i (firing cached) combined), ⟨i, cached⟩)

/-- Calls on the same frames, and their answers; `prepare` starts with no
answer kept. -/
def calls (memo : Memo F) : List (String × ℕ) → List (Option (StrategySignal F)) × Memo F
  | [] => ([], memo)
  | (instrument, i) :: rest =>
      let (answer, memo) := e.generate data instrument i memo
      let (answers, memo) := calls memo rest
      (answer :: answers, memo)

/-! ## What a call answers -/

/-- The answer worked out from the frames alone. -/
def answer : Option (StrategySignal F) :=
  if i < e.requiredHistory then none
  else
    (e.combine data instrument i).map
      (e.damp data instrument i
        (sortedNames (data.keys.filter fun sym => (e.combine data sym i).isSome)))

/-- What is kept for a row is what its frames give. -/
def Agrees (cached : Dict String (Option (StrategySignal F))) : Prop :=
  ∀ sym v, cached.get? sym = some v → v = e.combine data sym i

variable {data instrument i} {cached : Dict String (Option (StrategySignal F))}

variable {e}

theorem get?_fill (h : e.Agrees data i cached) (sym sym' : String) :
    (e.fill data i cached sym).get? sym' =
      if sym' = sym then some (e.combine data sym i) else cached.get? sym' := by
  rw [fill, Dict.get?_setDefault]
  by_cases heq : sym' = sym
  · rw [if_pos heq, if_pos heq]
    rcases hold : cached.get? sym with _ | old
    · rfl
    · rw [Option.getD_some, h sym old hold]
  · rw [if_neg heq, if_neg heq]

theorem agrees_fill (h : e.Agrees data i cached) (sym : String) :
    e.Agrees data i (e.fill data i cached sym) := by
  intro sym' v hv
  rw [get?_fill h] at hv
  split_ifs at hv with heq
  · rw [heq, Option.some.inj hv]
  · exact h sym' v hv

theorem agrees_foldl_fill (h : e.Agrees data i cached) (names : List String) :
    e.Agrees data i (names.foldl (e.fill data i) cached) := by
  induction names generalizing cached with
  | nil => exact h
  | cons sym names ih => exact ih (agrees_fill h sym)

theorem get?_foldl_fill (h : e.Agrees data i cached) (names : List String) (sym : String) :
    (names.foldl (e.fill data i) cached).get? sym =
      if sym ∈ names then some (e.combine data sym i) else cached.get? sym := by
  induction names generalizing cached with
  | nil => rw [if_neg List.not_mem_nil, List.foldl_nil]
  | cons n names ih =>
    rw [List.foldl_cons, ih (agrees_fill h n), get?_fill h]
    by_cases hn : sym = n
    · simp [hn]
    · simp [hn]

/-- A signal is for an instrument that has a frame. -/
theorem mem_keys_of_combine {sym : String} {s : StrategySignal F}
    (h : e.combine data sym i = some s) : sym ∈ data.keys := by
  rw [combine, Option.bind_eq_some_iff] at h
  obtain ⟨df, hdf, -⟩ := h
  exact Dict.mem_keys_of_get? hdf

/-- Once every instrument has an answer, the ones that fire are those whose
frames give a signal. -/
theorem firing_foldl_fill (h : e.Agrees data i cached) :
    firing (data.keys.foldl (e.fill data i) cached) =
      sortedNames (data.keys.filter fun sym => (e.combine data sym i).isSome) := by
  have hagrees := agrees_foldl_fill h data.keys
  have hperm : ((data.keys.foldl (e.fill data i) cached).keep fun _ v => v.isSome).keys.Perm
      (data.keys.filter fun sym => (e.combine data sym i).isSome) := by
    refine (List.perm_ext_iff_of_nodup (Dict.nodup _) (data.nodup.filter _)).mpr fun sym => ?_
    rw [List.mem_filter]
    constructor
    · intro hmem
      obtain ⟨v, hv⟩ := (Dict.mem_keys_iff _ sym).mp hmem
      rw [Dict.get?_keep, Option.filter_eq_some_iff] at hv
      have hcombine := hagrees sym v hv.1
      obtain ⟨s, hs⟩ := Option.isSome_iff_exists.mp hv.2
      rw [hs] at hcombine
      exact ⟨mem_keys_of_combine hcombine.symm, by rw [← hcombine]; rfl⟩
    · rintro ⟨hmem : sym ∈ data.keys, hsome⟩
      refine (Dict.mem_keys_iff _ sym).mpr ⟨e.combine data sym i, ?_⟩
      rw [Dict.get?_keep, get?_foldl_fill h, if_pos hmem, Option.filter_some, if_pos hsome]
  rw [firing, sortedNames, sortedNames]
  exact List.Perm.eq_of_pairwise' (r := (· ≤ ·)) (List.pairwise_insertionSort _ _)
    (List.pairwise_insertionSort _ _)
    ((List.perm_insertionSort _ _).trans (hperm.trans (List.perm_insertionSort _ _).symm))

/-- The answers kept are those of their row. -/
def Memo.Faithful (e : Ensemble F) (data : Dict String (Frame F)) (memo : Memo F) : Prop :=
  ∀ i : ℕ, memo.index = i → e.Agrees data i memo.cached

variable {memo : Memo F}

/-- A call answers what its frames give and keeps the answers faithful. -/
theorem generate_spec (instrument : String) (i : ℕ) (h : memo.Faithful e data) :
    (e.generate data instrument i memo).1 = e.answer data instrument i ∧
      (e.generate data instrument i memo).2.Faithful e data := by
  rw [generate, answer]
  by_cases hwarm : i < e.requiredHistory
  · rw [if_pos hwarm, if_pos hwarm]
    exact ⟨rfl, h⟩
  · have hstart : e.Agrees data i (if memo.index = i then memo.cached else .empty) := by
      split_ifs with hindex
      · exact h i hindex
      · intro sym v hv
        cases hv
    have hfill := agrees_fill hstart instrument
    have hself : (e.fill data i (if memo.index = i then memo.cached else .empty)
        instrument).getD instrument none = e.combine data instrument i := by
      rw [Dict.getD, get?_fill hstart, if_pos rfl, Option.getD_some]
    have hkept : ∀ cached, e.Agrees data i cached →
        (⟨i, cached⟩ : Memo F).Faithful e data := by
      intro cached hagrees j hj
      rw [← Int.natCast_inj.mp hj]
      exact hagrees
    rw [if_neg hwarm, if_neg hwarm]
    simp only [hself]
    rcases e.combine data instrument i with _ | combined
    · exact ⟨rfl, hkept _ hfill⟩
    · refine ⟨?_, hkept _ (agrees_foldl_fill hfill data.keys)⟩
      rw [Option.map_some, firing_foldl_fill hfill]

/-- The answers that are kept change no answer: over any calls after a
`prepare`, in any order of instruments and rows, each one is the answer worked
out from the frames alone. -/
theorem calls_eq_answers (e : Ensemble F) (data : Dict String (Frame F))
    (asked : List (String × ℕ)) :
    (e.calls data {} asked).1 = asked.map fun c => e.answer data c.1 c.2 := by
  have hstep : ∀ memo : Memo F, memo.Faithful e data →
      (e.calls data memo asked).1 = asked.map fun c => e.answer data c.1 c.2 := by
    induction asked with
    | nil => exact fun _ _ => rfl
    | cons c asked ih =>
      intro memo hmemo
      obtain ⟨hanswer, hkept⟩ := generate_spec c.1 c.2 hmemo
      rw [calls, List.map_cons, ← hanswer, ← ih _ hkept]
  refine hstep {} ?_
  intro i hi
  exact absurd hi (by simp)

/-! ## What a signal rests on -/

/-- The members behind a signal: enough of them are on its side, its stop is the
widest of theirs and its target the nearest, and both are on their sides of the
price and far enough apart. -/
structure Backed (e : Ensemble F) (fired : List (Ballot F)) (close : F)
    (s : StrategySignal F) : Prop where
  agreement : e.settings.minAgreement ≤ (agreeing s.side fired).length
  stop_given : ∃ b ∈ agreeing s.side fired, b.stopPrice = s.stopPrice
  stop_widest : ∀ b ∈ agreeing s.side fired,
    lt (sideSign s.side * b.stopPrice) (sideSign s.side * s.stopPrice) = false
  target_given : ∃ b ∈ agreeing s.side fired, b.targetPrice = some s.targetPrice
  target_nearest : ∀ b ∈ agreeing s.side fired, ∀ target, b.targetPrice = some target →
    lt (sideSign s.side * target) (sideSign s.side * s.targetPrice) = false
  risk_pos : le ((close - s.stopPrice) * sideSign s.side) (ofRat 0) = false
  reward_pos : le ((s.targetPrice - close) * sideSign s.side) (ofRat 0) = false
  reward_risk : lt ((s.targetPrice - close) * sideSign s.side /
    ((close - s.stopPrice) * sideSign s.side)) e.settings.minRewardRisk = false

/-- What `level_signal` lets through. -/
theorem levelSignal_cases {t : SignalTerms F} {close stop target least : F}
    {s : StrategySignal F} (h : levelSignal t close stop target least = some s) :
    s = { t.kept with stopPrice := stop, targetPrice := target } ∧
      le ((close - stop) * sideSign t.side) (ofRat 0) = false ∧
      le ((target - close) * sideSign t.side) (ofRat 0) = false ∧
      lt ((target - close) * sideSign t.side / ((close - stop) * sideSign t.side)) least =
        false := by
  simp only [levelSignal, Option.ite_none_left_eq_some, Bool.or_eq_true, not_or,
    Bool.not_eq_true, Option.some.injEq] at h
  obtain ⟨-, ⟨hrisk, hreward⟩, hratio, rfl⟩ := h
  exact ⟨rfl, hrisk, hreward, hratio⟩

variable {fired : List (Ballot F)} {close a net : F} {s : StrategySignal F}

theorem settle_backed
    (htrans : ∀ a b c : F, lt a b = true → lt b c = true → lt a c = true)
    (hirrefl : ∀ a : F, lt a a = false)
    (h : e.settle instrument fired close a net = some s) :
    s.side = (if lt (ofRat 0) net then .buy else .sell) ∧ e.Backed fired close s := by
  simp only [settle, Option.ite_none_left_eq_some, not_lt, Option.bind_eq_some_iff] at h
  obtain ⟨hagree, stop, hstop, target, htarget, hlevel⟩ := h
  obtain ⟨rfl, hrisk, hreward, hratio⟩ := levelSignal_cases hlevel
  refine ⟨rfl, hagree, ?_, ?_, ?_, ?_, hrisk, hreward, hratio⟩
  · obtain ⟨b, hb, heq⟩ := List.mem_map.mp (mem_of_firstLeast hstop)
    exact ⟨b, hb, heq⟩
  · intro b hb
    exact not_lt_firstLeast htrans hirrefl hstop (List.mem_map_of_mem hb)
  · obtain ⟨b, hb, heq⟩ := List.mem_filterMap.mp (mem_of_firstLeast htarget)
    exact ⟨b, hb, heq⟩
  · intro b hb t ht
    exact not_lt_firstLeast htrans hirrefl htarget (List.mem_filterMap.mpr ⟨b, hb, ht⟩)

/-- A signal that the ensemble gives, damped or not, is on the side its vote is
for and rests on the members that fired on that row: the vote was strong enough,
and the signal is backed by the ones that agree with it. -/
theorem answer_backed (e : Ensemble F) (data : Dict String (Frame F)) (instrument : String)
    (i : ℕ) {s : StrategySignal F}
    (htrans : ∀ a b c : F, lt a b = true → lt b c = true → lt a c = true)
    (hirrefl : ∀ a : F, lt a a = false) (h : e.answer data instrument i = some s) :
    ∃ df, data.get? instrument = some df ∧ i < df.length ∧
      let close := (df.bars i).close
      let fired := e.ballots data instrument i
      let net := total (fired.map (e.vote close (Indicators.atr df.bars 14 i)))
      lt (Float64.abs net) e.settings.minNetVote = false ∧
        s.side = (if lt (ofRat 0) net then .buy else .sell) ∧ e.Backed fired close s := by
  simp only [answer, Option.ite_none_left_eq_some, Option.map_eq_some_iff] at h
  obtain ⟨-, combined, hcombine, rfl⟩ := h
  simp only [combine, Option.bind_eq_some_iff, Option.ite_none_left_eq_some, not_le,
    Bool.not_eq_true] at hcombine
  obtain ⟨df, hdf, hi, -, -, hvote, hsettle⟩ := hcombine
  obtain ⟨hside, hbacked⟩ := settle_backed htrans hirrefl hsettle
  refine ⟨df, hdf, hi, hvote, ?_⟩
  -- the damping keeps the side and the prices
  rw [damp]
  by_cases hsize : 1 < e.clusterSize data instrument i
      (sortedNames (data.keys.filter fun sym => (e.combine data sym i).isSome))
  · rw [if_pos hsize]
    exact ⟨hside, { hbacked with }⟩
  · rw [if_neg hsize]
    exact ⟨hside, hbacked⟩

/-- A member with one signal on every row. -/
def constant (name : String) (side : Side) (stop : ℚ) (target : Option ℚ) :
    Member (Option ℚ) where
  name := name
  horizonBars := 10
  generate := fun _ _ _ =>
    some ⟨name, some side, ofRat 1, some (ofRat stop), target.map ofRat⟩

def pairwise : Settings (Option ℚ) := { minAgreement := 2 }

theorem pairwise_pos : 1 ≤ pairwise.minAgreement := by decide

theorem pairwise_le : pairwise.minAgreement ≤ 3 := by decide

/-- Two members that buy, with stops of their own, against one that sells. -/
def twoBuyers : Ensemble (Option ℚ) where
  members := [constant "trend" .buy 1 (some 4), constant "fader" .sell 3 none,
    constant "breakout" .buy (5 / 4) none]
  weights := .ofEntries [("trend", ofRat (1 / 2)), ("fader", ofRat (1 / 5)),
    ("breakout", ofRat (3 / 10))]
  settings := pairwise
  nodup := by decide
  noReference := by simp [constant]
  agreement_pos := pairwise_pos
  agreement_le := pairwise_le

def flatRows : Dict String (Frame (Option ℚ)) :=
  .ofEntries [("EUR_USD",
    List.replicate 321 ⟨⟨ofRat 2, ofRat (5 / 2), ofRat (3 / 2), ofRat 2⟩, 0, ofRat 0⟩)]

theorem lt_option_iff {a b : Option ℚ} :
    lt a b = true ↔ ∃ x y, a = some x ∧ b = some y ∧ x < y := by
  rcases a with _ | x
  · simp [lt]
  · rcases b with _ | y
    · simp [lt]
    · simp [lt]

theorem answer_backed_twoBuyers :
    ∃ s df, flatRows.get? "EUR_USD" = some df ∧ 320 < df.length ∧
      twoBuyers.Backed (twoBuyers.ballots flatRows "EUR_USD" 320) (df.bars 320).close s := by
  obtain ⟨s, hs⟩ : ∃ s, twoBuyers.answer flatRows "EUR_USD" 320 = some s :=
    Option.isSome_iff_exists.mp (by decide +kernel)
  obtain ⟨df, hdf, hlength, -, -, hbacked⟩ :=
    answer_backed twoBuyers flatRows "EUR_USD" 320
      (fun a b c hab hbc => by
        obtain ⟨x, y, rfl, rfl, hxy⟩ := lt_option_iff.mp hab
        obtain ⟨_, z, heq, rfl, hyz⟩ := lt_option_iff.mp hbc
        rw [← Option.some.inj heq] at hyz
        exact lt_option_iff.mpr ⟨x, z, rfl, rfl, hxy.trans hyz⟩)
      (fun a => by
        rw [Bool.eq_false_iff, ne_eq, lt_option_iff]
        rintro ⟨x, y, rfl, heq, hlt⟩
        exact hlt.ne (Option.some.inj heq)) hs
  exact ⟨s, df, hdf, hlength, hbacked⟩

end Ensemble

end Sentinel
