import Sentinel.Core.Types

/-!
# Profit protection

Four rules look at an open position and ask for a stop, a partial close or a
close.  Each stop a rule asks for is strictly safer than the one the position
was read with, and of several only the safest is kept.  Reasons are left out.
-/

namespace Sentinel

structure ProtectConfig where
  breakevenTriggerR : Dec := 1
  partialTakeR : Dec := 3 / 2
  partialTakeFraction : Dec := 1 / 2
  trailAtrMultiple : Dec := 5 / 2
  trailActivateR : Dec := 1
  givebackArmR : Dec := 3 / 2
  givebackKeepFraction : Dec := 1 / 2
  dailyProfitLockPct : Dec := 3
  profitLockKeepFraction : Dec := 3 / 5
  weekendFlat : Bool := true
  fridayCloseUtcHour : Option ℤ := none
  maxHoldSec : ℤ := 0

inductive ProtectRule where
  | breakeven
  | partialTake
  | atrTrail
  | giveback
  | timeStop
  | weekendFlat
  deriving DecidableEq

inductive ProtectAction where
  | moveStop (newStop : Dec)
  | partialClose (closeLots : Dec)
  | close
  deriving DecidableEq

structure ProtectInstruction where
  action : ProtectAction
  rule : ProtectRule
  rAtTrigger : Dec := 0
  deriving DecidableEq

def ProtectInstruction.newStop? (i : ProtectInstruction) : Option Dec :=
  match i.action with
  | .moveStop newStop => some newStop
  | _ => none

/-! ## Safer stops -/

/-- The stop `b` protects a position on this side at least as well as `a`. -/
def Side.AtLeastAsSafe : Side → Dec → Dec → Prop
  | .buy, a, b => a ≤ b
  | .sell, a, b => b ≤ a

instance (s : Side) (a b : Dec) : Decidable (s.AtLeastAsSafe a b) := by
  cases s <;> exact inferInstanceAs (Decidable (_ ≤ _))

theorem Side.AtLeastAsSafe.refl (s : Side) (a : Dec) : s.AtLeastAsSafe a a := by
  cases s <;> exact le_refl a

theorem Side.AtLeastAsSafe.trans {s : Side} {a b c : Dec} (hab : s.AtLeastAsSafe a b)
    (hbc : s.AtLeastAsSafe b c) : s.AtLeastAsSafe a c := by
  cases s
  · exact le_trans hab hbc
  · exact le_trans hbc hab

variable (side : Side) (out : List ProtectInstruction)

/-- `_tighter`: strictly safer than the stop there is. -/
def tighter (current : Option Dec) (candidate : Dec) : Bool :=
  match current with
  | none => true
  | some held =>
      match side with
      | .buy => decide (held < candidate)
      | .sell => decide (candidate < held)

theorem atLeastAsSafe_of_tighter {side : Side} {held candidate : Dec}
    (h : tighter side (some held) candidate = true) : side.AtLeastAsSafe held candidate := by
  cases side
  · exact (of_decide_eq_true h).le
  · exact (of_decide_eq_true h).le

def beyond (ref candidate : Dec) : Bool :=
  match side with
  | .buy => decide (ref ≤ candidate)
  | .sell => decide (candidate ≤ ref)

/-! ## The rules -/

variable (p : Position) (inst : Instrument)

def riskDistance (quoteToAccount : Dec) : Dec :=
  let pipVal := inst.pipValueQuote p.lots * quoteToAccount
  let sized :=
    if 0 < p.initialRisk ∧ 0 < pipVal then p.initialRisk / pipVal * inst.pip else 0
  if sized ≤ 0 then
    match p.stopLoss with
    | none => sized
    | some stop => if stop = 0 then sized else |p.entryPrice - stop|
  else sized

def priceAtR (targetR distance : Dec) : Option Dec :=
  if distance ≤ 0 then none
  else some (inst.roundPrice (p.entryPrice + distance * targetR * p.side.sign))

/-- `_breakeven_buffer`: the price distance that covers the round trip. -/
def breakevenBuffer (inst : Instrument) (p : Position) (quoteToAccount : Dec)
    (costModel : Option CostModel) : Dec :=
  let fallback := inst.pip * (3 / 2)
  match costModel with
  | none => fallback
  | some model =>
      match model.roundTripPips p.lots (inst.pipValueQuote p.lots * quoteToAccount) false with
      | .error _ => fallback
      | .ok costPips => if costPips ≤ 0 then fallback else costPips * inst.pip + inst.tick

def breakevenStop (inst : Instrument) (p : Position) (quoteToAccount : Dec)
    (costModel : Option CostModel) : Dec :=
  let sign := p.side.sign
  let candidate :=
    inst.roundPrice (p.entryPrice + breakevenBuffer inst p quoteToAccount costModel * sign)
  if (candidate - p.entryPrice) * sign ≤ 0 then
    inst.roundPrice (p.entryPrice + inst.tick * sign)
  else candidate

/-- Ask for `candidate` when it is safer than the stop there is. -/
def moveStop (p : Position) (rule : ProtectRule) (r candidate : Dec) :
    Option ProtectInstruction :=
  if tighter p.side p.stopLoss candidate then
    some { action := .moveStop candidate, rule, rAtTrigger := r }
  else none

section Rules

variable (cfg : ProtectConfig) (p : Position) (quote : Quote) (inst : Instrument)

def breakevenRule (r quoteToAccount : Dec) (costModel : Option CostModel) :
    Option ProtectInstruction :=
  if 0 < cfg.breakevenTriggerR ∧ ¬p.breakevenMoved ∧ cfg.breakevenTriggerR ≤ r ∧
      0 < riskDistance p inst quoteToAccount then
    moveStop p .breakeven r (breakevenStop inst p quoteToAccount costModel)
  else none

def partialTakeRule (r : Dec) : Option ProtectInstruction :=
  if 0 < cfg.partialTakeFraction ∧ ¬p.scaledOut ∧ 0 < cfg.partialTakeR ∧ cfg.partialTakeR ≤ r then
    let lots := inst.roundLotsDown (p.lots * cfg.partialTakeFraction)
    if inst.minLot ≤ lots ∧ inst.minLot ≤ p.lots - lots then
      some { action := .partialClose lots, rule := .partialTake, rAtTrigger := r }
    else none
  else none

def atrTrailRule (r : Dec) (atr : Option Dec) : Option ProtectInstruction :=
  match atr with
  | none => none
  | some range =>
      if 0 < cfg.trailAtrMultiple ∧ 0 < range ∧ cfg.trailActivateR ≤ r then
        let ref := quote.priceFor p.side.opposite
        let candidate := inst.roundPrice (ref - range * cfg.trailAtrMultiple * p.side.sign)
        -- never trail past the current price
        if beyond p.side ref candidate then none else moveStop p .atrTrail r candidate
      else none

def givebackRule (r quoteToAccount : Dec) : Option ProtectInstruction :=
  let distance := riskDistance p inst quoteToAccount
  if 0 < cfg.givebackArmR ∧ 0 < distance ∧ cfg.givebackArmR ≤ p.maxFavourable then
    match priceAtR p inst (p.maxFavourable * cfg.givebackKeepFraction) distance with
    | none => none
    | some candidate =>
        if tighter p.side p.stopLoss candidate then
          if beyond p.side (quote.priceFor p.side.opposite) candidate then
            some { action := .close, rule := .giveback, rAtTrigger := r }
          else some { action := .moveStop candidate, rule := .giveback, rAtTrigger := r }
        else none
  else none

end Rules

def saferMove (best next : ProtectInstruction × Dec) : ProtectInstruction × Dec :=
  match side with
  | .buy => if best.2 < next.2 then next else best
  | .sell => if next.2 < best.2 then next else best

def collapseMoves : List ProtectInstruction :=
  match out.filterMap fun i => i.newStop?.map fun stop => (i, stop) with
  | first :: second :: rest =>
      (out.filter fun i => i.newStop?.isNone) ++
        [((second :: rest).foldl (saferMove side) first).1]
  | _ => out

def supersede : List ProtectInstruction :=
  match out.filter fun i => i.action = .close with
  | [] => collapseMoves side out
  | first :: _ => [first]

def evaluateProtection (cfg : ProtectConfig) (p : Position) (quote : Quote) (inst : Instrument)
    (atr : Option Dec) (quoteToAccount : Dec) (costModel : Option CostModel) :
    List ProtectInstruction :=
  match p.rMultiple quote inst quoteToAccount with
  | none => []
  | some r =>
      supersede p.side <|
        (breakevenRule cfg p inst r quoteToAccount costModel).toList ++
          (partialTakeRule cfg p inst r).toList ++
          (atrTrailRule cfg p quote inst r atr).toList ++
          (givebackRule cfg p quote inst r quoteToAccount).toList

/-! ## The time-based exits -/

def utcWeekday (nowNs : ℤ) : ℤ := (nowNs / 86400000000000 + 3) % 7

def utcHour (nowNs : ℤ) : ℤ := nowNs / 3600000000000 % 24

/-- `weekend_flat`; the offset of New York is what `core.tzrules` says. -/
def weekendFlat (nowNs : ℤ) (fridayCloseUtcHour : Option ℤ) (nyOffset : ℤ → ℤ) :
    Option ProtectInstruction :=
  if utcWeekday nowNs ≠ 4 then none
  else if fridayCloseUtcHour.getD (16 - nyOffset nowNs) ≤ utcHour nowNs then
    some { action := .close, rule := .weekendFlat }
  else none

def timeStop (p : Position) (nowNs maxHoldSec : ℤ) : Option ProtectInstruction :=
  if maxHoldSec ≤ 0 then none
  else if maxHoldSec * 1000000000 ≤ nowNs - p.openedNs then
    some { action := .close, rule := .timeStop }
  else none

/-! ## What an instruction may say -/

def Instrument.OnTick (inst : Instrument) (price : Dec) : Prop :=
  inst.roundPrice price = price

theorem roundPrice_onTick (inst : Instrument) (price : Dec) :
    inst.OnTick (inst.roundPrice price) := by
  unfold Instrument.OnTick Instrument.roundPrice
  have hgrid : quantize price inst.tick = roundHalfEven (price / inst.tick) * inst.tick := rfl
  rw [hgrid, quantize_mul_self _ inst.tick_pos]

def ProtectInstruction.Sound (i : ProtectInstruction) : Prop :=
  ∀ stop ∈ i.newStop?, inst.OnTick stop ∧ tighter p.side p.stopLoss stop = true

variable {cfg : ProtectConfig} {p : Position} {quote : Quote} {inst : Instrument}

theorem sound_of_newStop?_eq_none {i : ProtectInstruction}
    (h : i.newStop? = none) : i.Sound p inst := by
  simp [ProtectInstruction.Sound, h]

theorem moveStop_sound {rule : ProtectRule} {r candidate : Dec}
    {i : ProtectInstruction} (hcandidate : inst.OnTick candidate)
    (h : moveStop p rule r candidate = some i) : i.Sound p inst := by
  rw [moveStop] at h
  split_ifs at h with htighter
  rw [← Option.some.inj h]
  intro stop hstop
  rw [← Option.some.inj hstop]
  exact ⟨hcandidate, htighter⟩

theorem breakevenStop_onTick (inst : Instrument) (p : Position) (conv : Dec)
    (costModel : Option CostModel) : inst.OnTick (breakevenStop inst p conv costModel) := by
  unfold breakevenStop
  simp only
  split
  · exact roundPrice_onTick inst _
  · exact roundPrice_onTick inst _

theorem breakevenRule_sound {r conv : Dec} {costModel : Option CostModel} {i : ProtectInstruction}
    (h : breakevenRule cfg p inst r conv costModel = some i) : i.Sound p inst := by
  rw [breakevenRule] at h
  split_ifs at h
  exact moveStop_sound (breakevenStop_onTick inst p conv costModel) h

theorem partialTakeRule_sound
    {r : Dec} {i : ProtectInstruction} (h : partialTakeRule cfg p inst r = some i) :
    i.Sound p inst := by
  rw [partialTakeRule] at h
  simp only at h
  split_ifs at h
  rw [← Option.some.inj h]
  exact sound_of_newStop?_eq_none rfl

theorem atrTrailRule_sound {r : Dec} {atr : Option Dec} {i : ProtectInstruction}
    (h : atrTrailRule cfg p quote inst r atr = some i) : i.Sound p inst := by
  unfold atrTrailRule at h
  cases atr with
  | none => cases h
  | some range =>
      simp only at h
      split_ifs at h
      exact moveStop_sound (roundPrice_onTick inst _) h

theorem givebackRule_sound {r conv : Dec} {i : ProtectInstruction}
    (h : givebackRule cfg p quote inst r conv = some i) : i.Sound p inst := by
  unfold givebackRule at h
  simp only at h
  split_ifs at h
  cases hprice : priceAtR p inst (p.maxFavourable * cfg.givebackKeepFraction)
      (riskDistance p inst conv) with
  | none =>
      rw [hprice] at h
      cases h
  | some candidate =>
      rw [hprice] at h
      simp only at h
      have htick : inst.OnTick candidate := by
        rw [priceAtR] at hprice
        split_ifs at hprice
        rw [← Option.some.inj hprice]
        exact roundPrice_onTick inst _
      split_ifs at h with htighter hbeyond
      · rw [← Option.some.inj h]
        exact sound_of_newStop?_eq_none rfl
      · rw [← Option.some.inj h]
        intro stop hstop
        rw [← Option.some.inj hstop]
        exact ⟨htick, htighter⟩

theorem foldl_saferMove_mem (rest : List (ProtectInstruction × Dec))
    (first : ProtectInstruction × Dec) :
    rest.foldl (saferMove side) first ∈ first :: rest := by
  induction rest generalizing first with
  | nil => exact List.mem_singleton_self first
  | cons next rest ih =>
      rw [List.foldl_cons]
      have hpick : saferMove side first next = first ∨ saferMove side first next = next := by
        unfold saferMove
        cases side <;> simp only <;> split_ifs <;> simp
      rcases hpick with hfirst | hnext
      · have hmem := ih first
        rw [hfirst]
        rcases List.mem_cons.1 hmem with heq | hin
        · rw [heq]
          exact List.mem_cons_self
        · exact List.mem_cons_of_mem _ (List.mem_cons_of_mem _ hin)
      · have hmem := ih next
        rw [hnext]
        exact List.mem_cons_of_mem _ hmem

theorem mem_of_mem_supersede {side : Side} {out : List ProtectInstruction}
    {i : ProtectInstruction} (h : i ∈ supersede side out) : i ∈ out := by
  rw [supersede] at h
  split at h
  · rw [collapseMoves] at h
    split at h
    · rename_i first second rest hmoves
      rcases List.mem_append.1 h with hkept | hbest
      · exact (List.mem_filter.1 hkept).1
      · rw [List.mem_singleton] at hbest
        have hmem := foldl_saferMove_mem side (second :: rest) first
        rw [← hmoves, List.mem_filterMap] at hmem
        obtain ⟨j, hj, hjmap⟩ := hmem
        obtain ⟨stop, -, hpair⟩ := Option.map_eq_some_iff.1 hjmap
        rw [hbest, ← hpair]
        exact hj
    · exact h
  · rename_i first rest hclose
    rw [List.mem_singleton] at h
    have hmem : first ∈ out.filter fun i => i.action = .close := by
      rw [hclose]
      exact List.mem_cons_self
    rw [h]
    exact (List.mem_filter.1 hmem).1

theorem supersede_moves :
    ((supersede side out).filterMap ProtectInstruction.newStop?).length ≤ 1 := by
  have hmoves : ∀ l : List ProtectInstruction,
      (l.filterMap fun i => i.newStop?.map fun stop => (i, stop)).length =
        (l.filterMap ProtectInstruction.newStop?).length := by
    intro l
    induction l with
    | nil => rfl
    | cons i l ih => cases hi : i.newStop? <;> simp [hi, ih]
  rw [supersede]
  split
  · rw [collapseMoves]
    split
    · rw [List.filterMap_append, List.length_append]
      have hnone : (out.filter fun i => i.newStop?.isNone).filterMap
          ProtectInstruction.newStop? = [] := by
        rw [List.filterMap_eq_nil_iff]
        intro i hi
        simpa using (List.mem_filter.1 hi).2
      rw [hnone]
      simpa using List.length_filterMap_le ProtectInstruction.newStop? [_]
    · rename_i hfew
      rw [← hmoves]
      match hlist : out.filterMap fun i => i.newStop?.map fun stop => (i, stop) with
      | [] => simp [hlist]
      | [single] => simp [hlist]
      | first :: second :: rest => exact absurd hlist (hfew first second rest)
  · exact le_trans (List.length_filterMap_le _ _) (by simp)

theorem supersede_close {side : Side} {out : List ProtectInstruction} {i : ProtectInstruction}
    (h : i ∈ supersede side out) (hclose : i.action = .close) : supersede side out = [i] := by
  have hmem := mem_of_mem_supersede h
  rw [supersede] at h ⊢
  split at h
  · rename_i hnone
    have hfiltered : i ∈ out.filter fun i => i.action = .close :=
      List.mem_filter.2 ⟨hmem, by simpa using hclose⟩
    rw [hnone] at hfiltered
    cases hfiltered
  · rw [List.mem_singleton] at h
    rw [h]

theorem evaluateProtection_sound {atr : Option Dec} {conv : Dec} {costModel : Option CostModel}
    {i : ProtectInstruction}
    (h : i ∈ evaluateProtection cfg p quote inst atr conv costModel) : i.Sound p inst := by
  rw [evaluateProtection] at h
  cases hr : p.rMultiple quote inst conv with
  | none =>
      rw [hr] at h
      cases h
  | some r =>
      rw [hr] at h
      have hmem := mem_of_mem_supersede h
      simp only [List.mem_append, Option.mem_toList] at hmem
      rcases hmem with ((hbreakeven | hshort) | htrail) | hgiveback
      · exact breakevenRule_sound hbreakeven
      · exact partialTakeRule_sound hshort
      · exact atrTrailRule_sound htrail
      · exact givebackRule_sound hgiveback

theorem evaluateProtection_moves (cfg : ProtectConfig) (p : Position) (quote : Quote)
    (inst : Instrument) (atr : Option Dec) (conv : Dec) (costModel : Option CostModel) :
    ((evaluateProtection cfg p quote inst atr conv costModel).filterMap
      ProtectInstruction.newStop?).length ≤ 1 := by
  rw [evaluateProtection]
  split
  · simp
  · exact supersede_moves _ _

theorem evaluateProtection_close {atr : Option Dec} {conv : Dec} {costModel : Option CostModel}
    {i : ProtectInstruction} (h : i ∈ evaluateProtection cfg p quote inst atr conv costModel)
    (hclose : i.action = .close) :
    evaluateProtection cfg p quote inst atr conv costModel = [i] := by
  rw [evaluateProtection] at h ⊢
  split at h
  · cases h
  · exact supersede_close h hclose

end Sentinel
