import Mathlib.Algebra.Order.Field.Basic
import Mathlib.Analysis.Complex.Exponential
import Mathlib.Data.List.GetD
import Mathlib.Tactic.FieldSimp
import Mathlib.Tactic.Ring

/-!
# Triple-barrier labels

The outcome of a trade from an event: the first bar that touches the target or
the stop, or the last bar that it may be held.  Prices are taken as exact, and
the exponential function is that of the caller.

The barriers are tested on the extremes of a bar, and the return is taken to its
close.
-/

namespace Sentinel
namespace Labeling

variable {K : Type} [Field K] [LinearOrder K]

/-! ## Inputs and rows -/

/-- `BarrierConfig`, with the checks of its constructor. -/
structure BarrierConfig (K : Type) [Field K] [LinearOrder K] where
  profitMult : K
  stopMult : K
  maxHoldBars : ℕ
  minSigma : K
  profit_pos : 0 < profitMult
  stop_pos : 0 < stopMult
  hold_pos : 1 ≤ maxHoldBars

/-- The closes of the bars, with their highs and lows where these are given. -/
structure PricePath (K : Type) where
  close : List K
  high : Option (List K) := none
  low : Option (List K) := none
  high_length : ∀ l ∈ high, l.length = close.length := by simp
  low_length : ∀ l ∈ low, l.length = close.length := by simp

namespace PricePath

variable (p : PricePath K)

def px (i : ℕ) : K := p.close.getD i 0

def hi (i : ℕ) : K := (p.high.getD p.close).getD i 0

def lo (i : ℕ) : K := (p.low.getD p.close).getD i 0

end PricePath

inductive Touched
  | target
  | stop
  | time
  deriving DecidableEq

structure LabelRow (K : Type) where
  t0 : ℕ
  t1 : ℕ
  touched : Touched
  ret : K
  label : ℤ
  sigma : K
  direction : K
  targetPrice : K
  stopPrice : K
  barsHeld : ℕ

/-! ## `triple_barrier_labels` -/

/-- `int(np.sign(x))`. -/
def sign (x : K) : ℤ := if 0 < x then 1 else if x < 0 then -1 else 0

variable (exp : K → K) (cfg : BarrierConfig K)

def barriers (entry s direction : K) : K × K :=
  if 0 < direction then
    (entry * exp (cfg.profitMult * s), entry * exp (-cfg.stopMult * s))
  else (entry * exp (cfg.stopMult * s), entry * exp (-cfg.profitMult * s))

def firstTouch (hi lo : ℕ → K) (up dn direction : K) : List ℕ → Option (ℕ × Touched)
  | [] => none
  | i :: bars =>
      if up ≤ hi i ∧ lo i ≤ dn then some (i, .stop)
      else if up ≤ hi i then some (i, if 0 < direction then .target else .stop)
      else if lo i ≤ dn then some (i, if 0 < direction then .stop else .target)
      else firstTouch hi lo up dn direction bars

variable (p : PricePath K)

def rowAt (s direction : K) (sided : Bool) (t0 : ℕ) : LabelRow K :=
  let entry := p.px t0
  let (up, dn) := barriers exp cfg entry s direction
  let last := min (t0 + cfg.maxHoldBars) (p.close.length - 1)
  let (t1, touched) := (firstTouch p.hi p.lo up dn direction
    (List.range' (t0 + 1) (last - t0))).getD (last, .time)
  let ret := (p.px t1 / entry - 1) * direction
  { t0, t1, touched, ret
    label :=
      if sided then if touched = .target then 1 else 0
      else match touched with
        | .target => 1
        | .stop => -1
        | .time => sign ret
    sigma := s, direction
    targetPrice := if 0 < direction then up else dn
    stopPrice := if 0 < direction then dn else up
    barsHeld := t1 - t0 }

def sideOf (side : Option (List K)) (t0 : ℤ) : K :=
  match side with
  | some side => side.getD t0.toNat 0
  | none => 1

def labelEvent (sigma : List K) (side : Option (List K)) (t0 : ℤ) : Option (LabelRow K) :=
  if t0 < 0 ∨ (p.close.length : ℤ) - 1 ≤ t0 then none
  else if sideOf side t0 = 0 then none
  else
    some (rowAt exp cfg p (max (sigma.getD t0.toNat 0) cfg.minSigma) (sideOf side t0) side.isSome
      t0.toNat)

def tripleBarrierLabels (events : List ℤ)
    (sigma : List K) (side : Option (List K)) : List (LabelRow K) :=
  events.filterMap (labelEvent exp cfg p sigma side)

/-! ## What a row says -/

structure PricePath.Positive (p : PricePath K) : Prop where
  close : ∀ x ∈ p.close, 0 < x
  high : ∀ l ∈ p.high, ∀ x ∈ l, 0 < x
  low : ∀ l ∈ p.low, ∀ x ∈ l, 0 < x

/-- The exponential function, as far as the barriers depend on it. -/
structure ExpLaws (exp : K → K) : Prop where
  pos : ∀ x, 0 < exp x
  neg : ∀ x, exp (-x) = (exp x)⁻¹
  one_lt : ∀ x, 0 < x → 1 < exp x

def TouchesTarget (row : LabelRow K) (i : ℕ) : Prop :=
  if 0 < row.direction then row.targetPrice ≤ p.hi i else p.lo i ≤ row.targetPrice

def TouchesStop (row : LabelRow K) (i : ℕ) : Prop :=
  if 0 < row.direction then p.lo i ≤ row.stopPrice else row.stopPrice ≤ p.hi i

def LabelOf (sided : Bool) (row : LabelRow K) : Prop :=
  row.label =
    match row.touched with
    | .target => 1
    | .stop => if sided then 0 else -1
    | .time => if sided then 0 else sign row.ret

structure FirstTouch (exp : K → K) (cfg : BarrierConfig K) (p : PricePath K) (sided : Bool)
    (row : LabelRow K) : Prop where
  targetPrice : row.targetPrice = p.px row.t0 *
    exp (if 0 < row.direction then cfg.profitMult * row.sigma else -cfg.profitMult * row.sigma)
  stopPrice : row.stopPrice = p.px row.t0 *
    exp (if 0 < row.direction then -cfg.stopMult * row.sigma else cfg.stopMult * row.sigma)
  after : row.t0 < row.t1
  held : row.t1 ≤ min (row.t0 + cfg.maxHoldBars) (p.close.length - 1)
  clear : ∀ i, row.t0 < i → i < row.t1 → ¬TouchesTarget p row i ∧ ¬TouchesStop p row i
  stop : row.touched = .stop ↔ TouchesStop p row row.t1
  target : row.touched = .target ↔ TouchesTarget p row row.t1 ∧ ¬TouchesStop p row row.t1
  time : row.touched = .time → row.t1 = min (row.t0 + cfg.maxHoldBars) (p.close.length - 1)
  label : LabelOf sided row

def PricePath.mirror (c : K) (p : PricePath K) : PricePath K where
  close := p.close.map (c / ·)
  high := p.low.map fun l => l.map (c / ·)
  low := p.high.map fun l => l.map (c / ·)
  high_length l hl := by
    obtain ⟨low, hlow, rfl⟩ := Option.mem_map.mp hl
    rw [List.length_map, List.length_map, p.low_length low hlow]
  low_length l hl := by
    obtain ⟨high, hhigh, rfl⟩ := Option.mem_map.mp hl
    rw [List.length_map, List.length_map, p.high_length high hhigh]

structure Mirrors (p : PricePath K) (row row' : LabelRow K) : Prop where
  t0 : row'.t0 = row.t0
  t1 : row'.t1 = row.t1
  touched : row'.touched = row.touched
  label : row'.label = row.label
  sigma : row'.sigma = row.sigma
  direction : row'.direction = -row.direction
  ret : row'.ret * p.px row.t1 = row.ret * p.px row.t0

/-! ## The first touch -/

section Loop

variable {hi lo : ℕ → K} {up dn direction : K}

theorem firstTouch_eq_none {a k : ℕ}
    (h : firstTouch hi lo up dn direction (List.range' a k) = none) :
    ∀ i, a ≤ i → i < a + k → ¬up ≤ hi i ∧ ¬lo i ≤ dn := by
  induction k generalizing a with
  | zero =>
      intro i hle hlt
      omega
  | succ k ih =>
      intro i hle hlt
      rw [List.range'_succ, firstTouch] at h
      split_ifs at h with hboth hup hdn
      rcases eq_or_lt_of_le hle with rfl | hlater
      · exact ⟨hup, hdn⟩
      · exact ih h i hlater (by omega)

theorem firstTouch_eq_some {a k i : ℕ} {w : Touched}
    (h : firstTouch hi lo up dn direction (List.range' a k) = some (i, w)) :
    (a ≤ i ∧ i < a + k) ∧ (∀ j, a ≤ j → j < i → ¬up ≤ hi j ∧ ¬lo j ≤ dn) ∧
      (up ≤ hi i ∧ lo i ≤ dn ∧ w = .stop ∨
        up ≤ hi i ∧ ¬lo i ≤ dn ∧ w = (if 0 < direction then .target else .stop) ∨
        ¬up ≤ hi i ∧ lo i ≤ dn ∧ w = if 0 < direction then .stop else .target) := by
  induction k generalizing a with
  | zero => cases h
  | succ k ih =>
      rw [List.range'_succ, firstTouch] at h
      by_cases hup : up ≤ hi a
      · by_cases hdn : lo a ≤ dn
        · rw [if_pos ⟨hup, hdn⟩] at h
          obtain ⟨rfl, rfl⟩ := Prod.mk.inj (Option.some.inj h)
          exact ⟨by omega, fun j hle hlt => by omega, .inl ⟨hup, hdn, rfl⟩⟩
        · rw [if_neg fun hboth => hdn hboth.2, if_pos hup] at h
          obtain ⟨rfl, rfl⟩ := Prod.mk.inj (Option.some.inj h)
          exact ⟨by omega, fun j hle hlt => by omega, .inr (.inl ⟨hup, hdn, rfl⟩)⟩
      · rw [if_neg fun hboth => hup hboth.1, if_neg hup] at h
        by_cases hdn : lo a ≤ dn
        · rw [if_pos hdn] at h
          obtain ⟨rfl, rfl⟩ := Prod.mk.inj (Option.some.inj h)
          exact ⟨by omega, fun j hle hlt => by omega, .inr (.inr ⟨hup, hdn, rfl⟩)⟩
        · rw [if_neg hdn] at h
          obtain ⟨hin, hclear, htouch⟩ := ih h
          refine ⟨by omega, fun j hle hlt => ?_, htouch⟩
          rcases eq_or_lt_of_le hle with rfl | hlater
          · exact ⟨hup, hdn⟩
          · exact hclear j hlater hlt

end Loop

section Row

variable (exp : K → K) (cfg : BarrierConfig K) (p : PricePath K) (s direction : K) (sided : Bool)
  (t0 : ℕ)

def lastBar : ℕ := min (t0 + cfg.maxHoldBars) (p.close.length - 1)

def touchOf : ℕ × Touched :=
  (firstTouch p.hi p.lo (barriers exp cfg (p.px t0) s direction).1
    (barriers exp cfg (p.px t0) s direction).2 direction
      (List.range' (t0 + 1) (lastBar cfg p t0 - t0))).getD (lastBar cfg p t0, .time)

theorem rowAt_touch : ((rowAt exp cfg p s direction sided t0).t1,
    (rowAt exp cfg p s direction sided t0).touched) = touchOf exp cfg p s direction t0 := rfl

theorem ret_rowAt : (rowAt exp cfg p s direction sided t0).ret =
    (p.px (rowAt exp cfg p s direction sided t0).t1 / p.px t0 - 1) * direction := rfl

theorem touchesTarget_rowAt (i : ℕ) :
    TouchesTarget p (rowAt exp cfg p s direction sided t0) i ↔
      if 0 < direction then (barriers exp cfg (p.px t0) s direction).1 ≤ p.hi i
      else p.lo i ≤ (barriers exp cfg (p.px t0) s direction).2 := by
  by_cases hpos : 0 < direction
  · simp [TouchesTarget, rowAt, hpos]
  · simp [TouchesTarget, rowAt, hpos]

theorem touchesStop_rowAt (i : ℕ) :
    TouchesStop p (rowAt exp cfg p s direction sided t0) i ↔
      if 0 < direction then p.lo i ≤ (barriers exp cfg (p.px t0) s direction).2
      else (barriers exp cfg (p.px t0) s direction).1 ≤ p.hi i := by
  by_cases hpos : 0 < direction
  · simp [TouchesStop, rowAt, hpos]
  · simp [TouchesStop, rowAt, hpos]

theorem labelOf_rowAt : LabelOf sided (rowAt exp cfg p s direction sided t0) := by
  simp only [LabelOf, rowAt]
  generalize Option.getD _ _ = touch
  obtain ⟨t1, touched⟩ := touch
  rcases sided
  · rcases touched <;> rfl
  · rcases touched <;> rfl

theorem targetPrice_rowAt : (rowAt exp cfg p s direction sided t0).targetPrice =
    p.px t0 * exp (if 0 < direction then cfg.profitMult * s else -cfg.profitMult * s) := by
  simp only [rowAt, barriers]
  split_ifs <;> rfl

theorem stopPrice_rowAt : (rowAt exp cfg p s direction sided t0).stopPrice =
    p.px t0 * exp (if 0 < direction then -cfg.stopMult * s else cfg.stopMult * s) := by
  simp only [rowAt, barriers]
  split_ifs <;> rfl

theorem untouched_rowAt {i : ℕ} (h : ¬(barriers exp cfg (p.px t0) s direction).1 ≤ p.hi i ∧
    ¬p.lo i ≤ (barriers exp cfg (p.px t0) s direction).2) :
    ¬TouchesTarget p (rowAt exp cfg p s direction sided t0) i ∧
      ¬TouchesStop p (rowAt exp cfg p s direction sided t0) i := by
  rw [touchesTarget_rowAt, touchesStop_rowAt]
  split_ifs
  · exact h
  · exact h.symm

theorem firstTouch_rowAt (h : t0 + 1 < p.close.length) :
    FirstTouch exp cfg p sided (rowAt exp cfg p s direction sided t0) := by
  have hhold := cfg.hold_pos
  have hrow := rowAt_touch exp cfg p s direction sided t0
  rw [touchOf] at hrow
  rcases hscan : firstTouch p.hi p.lo (barriers exp cfg (p.px t0) s direction).1
    (barriers exp cfg (p.px t0) s direction).2 direction
      (List.range' (t0 + 1) (lastBar cfg p t0 - t0)) with - | ⟨i, w⟩
  · rw [hscan, Option.getD_none, Prod.mk.injEq] at hrow
    obtain ⟨ht1, hw⟩ := hrow
    have hclear (i : ℕ) (hafter : t0 < i) (hheld : i ≤ lastBar cfg p t0) :=
      untouched_rowAt exp cfg p s direction sided t0
        (firstTouch_eq_none hscan i hafter (by omega))
    have hlast : t0 < lastBar cfg p t0 := by
      rw [lastBar]
      omega
    obtain ⟨htarget, hstop⟩ := hclear _ hlast le_rfl
    refine
      { targetPrice := targetPrice_rowAt exp cfg p s direction sided t0
        stopPrice := stopPrice_rowAt exp cfg p s direction sided t0
        after := by rw [ht1]; exact hlast
        held := by rw [ht1]; exact le_rfl
        clear := fun i hafter hbefore => hclear i hafter (by rw [ht1] at hbefore; omega)
        stop := ?_
        target := ?_
        time := fun _ => ht1
        label := labelOf_rowAt exp cfg p s direction sided t0 }
    · rw [hw, ht1]
      exact iff_of_false (fun heq => nomatch heq) hstop
    · rw [hw, ht1]
      exact iff_of_false (fun heq => nomatch heq) fun hboth => htarget hboth.1
  · rw [hscan, Option.getD_some, Prod.mk.injEq] at hrow
    obtain ⟨ht1, hw⟩ := hrow
    obtain ⟨hin, hclear, htouch⟩ := firstTouch_eq_some hscan
    refine
      { targetPrice := targetPrice_rowAt exp cfg p s direction sided t0
        stopPrice := stopPrice_rowAt exp cfg p s direction sided t0
        after := by rw [ht1]; exact hin.1
        held := by rw [ht1]; change i ≤ lastBar cfg p t0; omega
        clear := fun j hafter hbefore => untouched_rowAt exp cfg p s direction sided t0
          (hclear j hafter (by rw [ht1] at hbefore; exact hbefore))
        stop := ?_
        target := ?_
        time := ?_
        label := labelOf_rowAt exp cfg p s direction sided t0 }
    all_goals rw [hw]
    · rw [ht1, touchesStop_rowAt]
      rcases htouch with ⟨hup, hdn, rfl⟩ | ⟨hup, hdn, rfl⟩ | ⟨hup, hdn, rfl⟩
      · split_ifs <;> simp [hup, hdn]
      · split_ifs <;> simp [hup, hdn]
      · split_ifs <;> simp [hup, hdn]
    · rw [ht1, touchesTarget_rowAt, touchesStop_rowAt]
      rcases htouch with ⟨hup, hdn, rfl⟩ | ⟨hup, hdn, rfl⟩ | ⟨hup, hdn, rfl⟩
      · split_ifs <;> simp [hup, hdn]
      · split_ifs <;> simp [hup, hdn]
      · split_ifs <;> simp [hup, hdn]
    · rcases htouch with ⟨-, -, rfl⟩ | ⟨-, -, rfl⟩ | ⟨-, -, rfl⟩
      · exact fun heq => nomatch heq
      · split_ifs <;> exact fun heq => nomatch heq
      · split_ifs <;> exact fun heq => nomatch heq

end Row

/-! ## The mirrored path -/

namespace PricePath

section Reciprocal

variable {K : Type} [Field K] (c : K) (p : PricePath K)

theorem getD_mirror (l : List K) (i : ℕ) : (l.map (c / ·)).getD i 0 = c / l.getD i 0 := by
  have hmap : (l.map (c / ·)).getD i (c / 0) = c / l.getD i 0 := List.getD_map l 0 (c / ·)
  rwa [div_zero] at hmap

theorem px_mirror (i : ℕ) : (p.mirror c).px i = c / p.px i := getD_mirror c p.close i

theorem hi_mirror (i : ℕ) : (p.mirror c).hi i = c / p.lo i := by
  change ((p.low.map fun l => l.map (c / ·)).getD (p.close.map (c / ·))).getD i 0 = _
  rw [lo]
  rcases p.low with - | l
  · exact getD_mirror c p.close i
  · exact getD_mirror c l i

theorem lo_mirror (i : ℕ) : (p.mirror c).lo i = c / p.hi i := by
  change ((p.high.map fun l => l.map (c / ·)).getD (p.close.map (c / ·))).getD i 0 = _
  rw [hi]
  rcases p.high with - | l
  · exact getD_mirror c p.close i
  · exact getD_mirror c l i

end Reciprocal

variable {p : PricePath K}

theorem getD_pos {l : List K} (hl : ∀ x ∈ l, 0 < x) {i : ℕ} (h : i < l.length) :
    0 < l.getD i 0 := by
  rw [List.getD_eq_getElem _ _ h]
  exact hl _ (List.getElem_mem h)

theorem Positive.px (hp : p.Positive) {i : ℕ} (h : i < p.close.length) : 0 < p.px i :=
  getD_pos hp.close h

theorem Positive.hi (hp : p.Positive) {i : ℕ} (h : i < p.close.length) : 0 < p.hi i := by
  rw [PricePath.hi]
  rcases hhigh : p.high with - | l
  · exact getD_pos hp.close h
  · refine getD_pos (hp.high l hhigh) ?_
    rw [p.high_length l hhigh]
    exact h

theorem Positive.lo (hp : p.Positive) {i : ℕ} (h : i < p.close.length) : 0 < p.lo i := by
  rw [PricePath.lo]
  rcases hlow : p.low with - | l
  · exact getD_pos hp.close h
  · refine getD_pos (hp.low l hlow) ?_
    rw [p.low_length l hlow]
    exact h

end PricePath

section Mirror

variable [IsStrictOrderedRing K] {exp : K → K} {c : K}

theorem barriers_pos (hexp : ExpLaws exp) (cfg : BarrierConfig K) {entry : K} (h : 0 < entry)
    (s direction : K) :
    0 < (barriers exp cfg entry s direction).1 ∧ 0 < (barriers exp cfg entry s direction).2 := by
  rw [barriers]
  split_ifs
  · exact ⟨mul_pos h (hexp.pos _), mul_pos h (hexp.pos _)⟩
  · exact ⟨mul_pos h (hexp.pos _), mul_pos h (hexp.pos _)⟩

theorem barriers_mirror (hexp : ExpLaws exp) (cfg : BarrierConfig K) (entry s : K) {direction : K}
    (hdirection : direction ≠ 0) :
    barriers exp cfg (c / entry) s (-direction) =
      (c / (barriers exp cfg entry s direction).2, c / (barriers exp cfg entry s direction).1) := by
  have hdiv (a : K) : c / entry * exp (-a * s) = c / (entry * exp (a * s)) := by
    rw [neg_mul, hexp.neg, div_mul_eq_div_div, ← div_eq_mul_inv]
  have hmul (a : K) : c / entry * exp (a * s) = c / (entry * exp (-a * s)) := by
    rw [neg_mul, hexp.neg, div_mul_eq_div_div, div_inv_eq_mul]
  rcases lt_or_gt_of_ne hdirection with hneg | hpos
  · simp only [barriers]
    rw [if_pos (neg_pos.mpr hneg), if_neg (not_lt.mpr hneg.le), hdiv, hmul]
  · simp only [barriers]
    rw [if_neg (by simpa using hpos.le), if_pos hpos, hdiv, hmul]

theorem firstTouch_mirror {hi lo : ℕ → K} {up dn direction : K} (hc : 0 < c) (hup : 0 < up)
    (hdn : 0 < dn) (hdirection : direction ≠ 0) {bars : List ℕ}
    (hbars : ∀ i ∈ bars, 0 < hi i ∧ 0 < lo i) :
    firstTouch (fun i => c / lo i) (fun i => c / hi i) (c / dn) (c / up) (-direction) bars =
      firstTouch hi lo up dn direction bars := by
  induction bars with
  | nil => rfl
  | cons i bars ih =>
      rw [List.forall_mem_cons] at hbars
      obtain ⟨⟨hhi, hlo⟩, hbars⟩ := hbars
      have hside : 0 < -direction ↔ ¬0 < direction := by
        rw [neg_pos, not_lt]
        exact ⟨le_of_lt, fun hle => lt_of_le_of_ne hle hdirection⟩
      rw [firstTouch, firstTouch, ih hbars]
      simp only [div_le_div_iff_of_pos_left hc hdn hlo, div_le_div_iff_of_pos_left hc hhi hup,
        hside]
      by_cases htouchUp : up ≤ hi i
      · by_cases htouchDn : lo i ≤ dn
        · simp [htouchUp, htouchDn]
        · by_cases hpos : 0 < direction <;> simp [htouchUp, htouchDn, hpos]
      · by_cases htouchDn : lo i ≤ dn
        · by_cases hpos : 0 < direction <;> simp [htouchUp, htouchDn, hpos]
        · simp [htouchUp, htouchDn]

theorem mirrors_rowAt (hexp : ExpLaws exp) (hc : 0 < c) (cfg : BarrierConfig K) {p : PricePath K}
    (hp : p.Positive) (s : K) {direction : K} (hdirection : direction ≠ 0) {t0 : ℕ}
    (h : t0 + 1 < p.close.length) :
    Mirrors p (rowAt exp cfg p s direction true t0)
      (rowAt exp cfg (p.mirror c) s (-direction) true t0) := by
  have hentry : 0 < p.px t0 := hp.px (by omega)
  have htouch : touchOf exp cfg (p.mirror c) s (-direction) t0 =
      touchOf exp cfg p s direction t0 := by
    have hlast : lastBar cfg (p.mirror c) t0 = lastBar cfg p t0 := by
      rw [lastBar, lastBar, PricePath.mirror, List.length_map]
    obtain ⟨hup, hdn⟩ := barriers_pos hexp cfg hentry s direction
    rw [touchOf, touchOf, hlast, p.px_mirror, barriers_mirror hexp cfg _ s hdirection,
      funext (p.hi_mirror c), funext (p.lo_mirror c), firstTouch_mirror hc hup hdn hdirection]
    intro i hi
    rw [List.mem_range'_1, lastBar] at hi
    exact ⟨hp.hi (by omega), hp.lo (by omega)⟩
  have hrow := rowAt_touch exp cfg p s direction true t0
  have hrow' := rowAt_touch exp cfg (p.mirror c) s (-direction) true t0
  rw [htouch, ← hrow, Prod.mk.injEq] at hrow'
  have hlabel := labelOf_rowAt exp cfg p s direction true t0
  have hlabel' := labelOf_rowAt exp cfg (p.mirror c) s (-direction) true t0
  have hclose : 0 < p.px (rowAt exp cfg p s direction true t0).t1 := by
    have hfirst := firstTouch_rowAt exp cfg p s direction true t0 h
    have hheld := hfirst.held
    exact hp.px (by omega)
  refine
    { t0 := rfl, t1 := hrow'.1, touched := hrow'.2, sigma := rfl, direction := rfl
      label := by rw [LabelOf] at hlabel hlabel'; rw [hlabel, hlabel', hrow'.2]; rfl
      ret := ?_ }
  have ht0 : (rowAt exp cfg p s direction true t0).t0 = t0 := rfl
  rw [ret_rowAt, ret_rowAt, hrow'.1, ht0, p.px_mirror, p.px_mirror]
  field_simp
  ring

end Mirror

/-! ## Barriers tested on closes -/

section Closes

variable [IsStrictOrderedRing K] {exp : K → K}

theorem exp_neg_lt_one (hexp : ExpLaws exp) {x : K} (h : 0 < x) : exp (-x) < 1 := by
  rw [hexp.neg]
  exact inv_lt_one_of_one_lt₀ (hexp.one_lt x h)

theorem FirstTouch.ret_sign (hexp : ExpLaws exp) {cfg : BarrierConfig K} {p : PricePath K}
    {sided : Bool} {row : LabelRow K} (h : FirstTouch exp cfg p sided row)
    (hhigh : p.high = none) (hlow : p.low = none) (hentry : 0 < p.px row.t0)
    (hsigma : 0 < row.sigma) (hdirection : row.direction ≠ 0)
    (hret : row.ret = (p.px row.t1 / p.px row.t0 - 1) * row.direction) :
    (row.touched = .target → 0 < row.ret) ∧ (row.touched = .stop → row.ret < 0) := by
  have hhi : p.hi row.t1 = p.px row.t1 := by rw [PricePath.hi, hhigh, PricePath.px]; rfl
  have hlo : p.lo row.t1 = p.px row.t1 := by rw [PricePath.lo, hlow, PricePath.px]; rfl
  have hprofit := mul_pos cfg.profit_pos hsigma
  have hstop := mul_pos cfg.stop_pos hsigma
  -- a close beyond a barrier is on its side of the entry
  have habove {x : K} (hx : 0 < x) (hle : p.px row.t0 * exp x ≤ p.px row.t1) :
      0 < p.px row.t1 / p.px row.t0 - 1 := by
    rw [sub_pos, one_lt_div hentry]
    exact (lt_mul_of_one_lt_right hentry (hexp.one_lt x hx)).trans_le hle
  have hbelow {x : K} (hx : 0 < x) (hle : p.px row.t1 ≤ p.px row.t0 * exp (-x)) :
      p.px row.t1 / p.px row.t0 - 1 < 0 := by
    rw [sub_neg, div_lt_one hentry]
    exact hle.trans_lt (mul_lt_of_lt_one_right hentry (exp_neg_lt_one hexp hx))
  rw [hret]
  rcases lt_or_gt_of_ne hdirection with hneg | hpos
  · constructor
    · intro htouched
      have htouch := (h.target.mp htouched).1
      rw [TouchesTarget, if_neg hneg.not_gt, h.targetPrice, if_neg hneg.not_gt, neg_mul, hlo]
        at htouch
      exact mul_pos_of_neg_of_neg (hbelow hprofit htouch) hneg
    · intro htouched
      have htouch := h.stop.mp htouched
      rw [TouchesStop, if_neg hneg.not_gt, h.stopPrice, if_neg hneg.not_gt, hhi] at htouch
      exact mul_neg_of_pos_of_neg (habove hstop htouch) hneg
  · constructor
    · intro htouched
      have htouch := (h.target.mp htouched).1
      rw [TouchesTarget, if_pos hpos, h.targetPrice, if_pos hpos, hhi] at htouch
      exact mul_pos (habove hprofit htouch) hpos
    · intro htouched
      have htouch := h.stop.mp htouched
      rw [TouchesStop, if_pos hpos, h.stopPrice, if_pos hpos, neg_mul, hlo] at htouch
      exact mul_neg_of_neg_of_pos (hbelow hstop htouch) hpos

end Closes

/-! ## All events -/

section Events

variable {exp : K → K} {cfg : BarrierConfig K} {p : PricePath K} {sigma : List K}
  {side : Option (List K)}

theorem labelEvent_eq_some {t0 : ℤ} {row : LabelRow K}
    (h : labelEvent exp cfg p sigma side t0 = some row) :
    0 ≤ t0 ∧ t0.toNat + 1 < p.close.length ∧ sideOf side t0 ≠ 0 ∧
      row = rowAt exp cfg p (max (sigma.getD t0.toNat 0) cfg.minSigma) (sideOf side t0) side.isSome
        t0.toNat := by
  rw [labelEvent] at h
  split_ifs at h with hout hzero
  exact ⟨by omega, by omega, hzero, (Option.some.inj h).symm⟩

theorem labelEvent_of_side {t0 : ℤ} (h0 : 0 ≤ t0) (h : t0 < p.close.length - 1)
    (hside : sideOf side t0 ≠ 0) :
    labelEvent exp cfg p sigma side t0 = some (rowAt exp cfg p
      (max (sigma.getD t0.toNat 0) cfg.minSigma) (sideOf side t0) side.isSome t0.toNat) := by
  rw [labelEvent, if_neg (by omega), if_neg hside]

theorem forall₂_filterMap {α β γ : Type} {R : β → γ → Prop} {f : α → Option β} {g : α → Option γ}
    (h : ∀ a, Option.Rel R (f a) (g a)) (l : List α) :
    List.Forall₂ R (l.filterMap f) (l.filterMap g) := by
  induction l with
  | nil => exact .nil
  | cons a l ih =>
      have ha := h a
      rcases hf : f a with - | b
      · rcases hg : g a with - | b'
        · rwa [List.filterMap_cons_none hf, List.filterMap_cons_none hg]
        · rw [hf, hg] at ha
          cases ha
      · rcases hg : g a with - | b'
        · rw [hf, hg] at ha
          cases ha
        · rw [hf, hg] at ha
          rw [List.filterMap_cons_some hf, List.filterMap_cons_some hg]
          cases ha with
          | some hb => exact .cons hb ih

omit [LinearOrder K] in
theorem sideOf_neg (sides : List K) (t0 : ℤ) :
    sideOf (some (sides.map (-·))) t0 = -sideOf (some sides) t0 := by
  have hmap : (sides.map (-·)).getD t0.toNat (-0) = -sides.getD t0.toNat 0 :=
    List.getD_map sides 0 (-·)
  rwa [neg_zero] at hmap

/-- The labels of events: one for every event of the path that has a side, of
the first bar that touches a barrier; the same for the opposite trades on the
mirrored path; and with the sign of the barrier where it is tested on closes. -/
structure CoherentLabels (exp : K → K) (cfg : BarrierConfig K) (p : PricePath K)
    (events : List ℤ) (sigma : List K) (side : Option (List K)) : Prop where
  labelled : ∀ t0 ∈ events, 0 ≤ t0 → t0 < p.close.length - 1 → sideOf side t0 ≠ 0 →
    ∃ row ∈ tripleBarrierLabels exp cfg p events sigma side, (row.t0 : ℤ) = t0 ∧
      row.direction = sideOf side t0 ∧ row.sigma = max (sigma.getD t0.toNat 0) cfg.minSigma
  first : ∀ row ∈ tripleBarrierLabels exp cfg p events sigma side,
    FirstTouch exp cfg p side.isSome row
  mirrored : ∀ c, 0 < c → ∀ sides, side = some sides →
    List.Forall₂ (Mirrors p) (tripleBarrierLabels exp cfg p events sigma side)
      (tripleBarrierLabels exp cfg (p.mirror c) events sigma (some (sides.map (-·))))
  signs : p.high = none → p.low = none →
    ∀ row ∈ tripleBarrierLabels exp cfg p events sigma side, 0 < row.sigma →
      (row.touched = .target → 0 < row.ret) ∧ (row.touched = .stop → row.ret < 0)

variable [IsStrictOrderedRing K]

theorem mirrors_labelEvent (hexp : ExpLaws exp) {c : K} (hc : 0 < c) (hp : p.Positive)
    (sides : List K) (t0 : ℤ) :
    Option.Rel (Mirrors p) (labelEvent exp cfg p sigma (some sides) t0)
      (labelEvent exp cfg (p.mirror c) sigma (some (sides.map (-·))) t0) := by
  have hlength : (p.mirror c).close.length = p.close.length := List.length_map _
  by_cases hin : 0 ≤ t0 ∧ t0 < p.close.length - 1 ∧ sideOf (some sides) t0 ≠ 0
  · obtain ⟨h0, h, hside⟩ := hin
    rw [labelEvent_of_side h0 h hside, labelEvent_of_side h0 (by rw [hlength]; exact h)
      (by rw [sideOf_neg]; exact neg_ne_zero.mpr hside), sideOf_neg]
    exact .some (mirrors_rowAt hexp hc cfg hp _ hside (by omega))
  · have hnone : labelEvent exp cfg p sigma (some sides) t0 = none := by
      rcases hrow : labelEvent exp cfg p sigma (some sides) t0 with - | row
      · rfl
      · obtain ⟨h0, h, hside, -⟩ := labelEvent_eq_some hrow
        exact absurd ⟨h0, by omega, hside⟩ hin
    have hnone' : labelEvent exp cfg (p.mirror c) sigma (some (sides.map (-·))) t0 = none := by
      rcases hrow : labelEvent exp cfg (p.mirror c) sigma (some (sides.map (-·))) t0 with - | row
      · rfl
      · obtain ⟨h0, h, hside, -⟩ := labelEvent_eq_some hrow
        rw [sideOf_neg] at hside
        exact absurd ⟨h0, by omega, neg_ne_zero.mp hside⟩ hin
    rw [hnone, hnone']
    exact .none

/-- Labels are coherent, whatever the path, the events and the sides. -/
theorem coherentLabels (hexp : ExpLaws exp) (cfg : BarrierConfig K) (hp : p.Positive)
    (events : List ℤ) (sigma : List K) (side : Option (List K)) :
    CoherentLabels exp cfg p events sigma side := by
  have hrow {row : LabelRow K} (h : row ∈ tripleBarrierLabels exp cfg p events sigma side) :
      ∃ s t0, t0 + 1 < p.close.length ∧ ∃ direction, direction ≠ 0 ∧
        row = rowAt exp cfg p s direction side.isSome t0 := by
    obtain ⟨t0, -, hlabel⟩ := List.mem_filterMap.mp h
    obtain ⟨-, hlength, hside, rfl⟩ := labelEvent_eq_some hlabel
    exact ⟨_, _, hlength, _, hside, rfl⟩
  refine { labelled := ?_, first := ?_, mirrored := ?_, signs := ?_ }
  · intro t0 ht0 h0 h hside
    exact ⟨_, List.mem_filterMap.mpr ⟨t0, ht0, labelEvent_of_side h0 h hside⟩,
      Int.toNat_of_nonneg h0, rfl, rfl⟩
  · intro row hmem
    obtain ⟨s, t0, h, direction, -, rfl⟩ := hrow hmem
    exact firstTouch_rowAt exp cfg p s direction side.isSome t0 h
  · rintro c hc sides rfl
    exact forall₂_filterMap (mirrors_labelEvent hexp hc hp sides) events
  · intro hhigh hlow row hmem hsigma
    obtain ⟨s, t0, h, direction, hside, rfl⟩ := hrow hmem
    exact (firstTouch_rowAt exp cfg p s direction side.isSome t0 h).ret_sign hexp hhigh hlow
      (hp.px (show t0 < _ by omega)) hsigma hside
      (ret_rowAt exp cfg p s direction side.isSome t0)

end Events

/-! ## Returns -/

def ReturnsMirrored : Prop :=
  ∀ (cfg : BarrierConfig K) (p : PricePath K) (events : List ℤ) (sigma sides : List K) (c : K),
    p.Positive → 0 < c →
      List.Forall₂ (fun row row' => row'.touched = row.touched ∧ row'.ret = row.ret)
        (tripleBarrierLabels exp cfg p events sigma (some sides))
        (tripleBarrierLabels exp cfg (p.mirror c) events sigma (some (sides.map (-·))))

def ReturnsSigned : Prop :=
  ∀ (cfg : BarrierConfig K) (p : PricePath K) (events : List ℤ) (sigma : List K)
    (side : Option (List K)), p.Positive →
      ∀ row ∈ tripleBarrierLabels exp cfg p events sigma side, 0 < row.sigma →
        (row.touched = .target → 0 < row.ret) ∧ (row.touched = .stop → row.ret < 0)

theorem expLaws_real : ExpLaws Real.exp where
  pos := Real.exp_pos
  neg := Real.exp_neg
  one_lt _ h := Real.one_lt_exp_iff.mpr h

noncomputable def oneBar : BarrierConfig ℝ where
  profitMult := 2
  stopMult := 1
  maxHoldBars := 1
  minSigma := 1 / 1000000
  profit_pos := by norm_num
  stop_pos := one_pos
  hold_pos := le_rfl

def doubled : PricePath ℝ where
  close := [1, 2]

noncomputable def spike : PricePath ℝ where
  close := [1, 11 / 10]
  high := some [1, 12 / 10]
  low := some [1, 1 / 10]

theorem doubled_positive : doubled.Positive where
  close := by simp [doubled]
  high := by simp [doubled]
  low := by simp [doubled]

theorem spike_positive : spike.Positive where
  close := by norm_num [spike]
  high := by norm_num [spike]
  low := by norm_num [spike]

noncomputable def threeHeld : BarrierConfig ℝ := { oneBar with
  maxHoldBars := 3
  hold_pos := by norm_num }

noncomputable def swing : PricePath ℝ where
  close := [1, 11 / 10, 14 / 10, 12 / 10, 8 / 10, 8 / 10, 8 / 10, 8 / 10]
  high := some [1, 12 / 10, 15 / 10, 16 / 10, 12 / 10, 8 / 10, 8 / 10, 8 / 10]
  low := some [1, 1, 11 / 10, 7 / 10, 8 / 10, 8 / 10, 8 / 10, 8 / 10]

theorem swing_positive : swing.Positive where
  close := by norm_num [swing]
  high := by norm_num [swing]
  low := by norm_num [swing]

/-- Long into the rise, short into the fall, long into it, nothing, and long at the end. -/
theorem coherentLabels_swing :
    CoherentLabels Real.exp threeHeld swing [0, 2, 3, 4, 5] (List.replicate 8 (1 / 10))
      (some [1, 0, -1, 1, 0, 1, 0, 0]) :=
  coherentLabels expLaws_real threeHeld swing_positive [0, 2, 3, 4, 5]
    (List.replicate 8 (1 / 10)) (some [1, 0, -1, 1, 0, 1, 0, 0])

theorem labels_twoBars (p : PricePath ℝ) (side : Option (List ℝ)) (hlength : p.close.length = 2)
    (hside : sideOf side 0 ≠ 0) :
    ∃ row, tripleBarrierLabels Real.exp oneBar p [0] [1 / 2] side = [row] ∧
      FirstTouch Real.exp oneBar p side.isSome row ∧ row.t0 = 0 ∧ row.t1 = 1 ∧
        row.direction = sideOf side 0 ∧ row.sigma = max (1 / 2) (1 / 1000000) ∧
          row.ret = (p.px 1 / p.px 0 - 1) * sideOf side 0 := by
  have hlabel : labelEvent Real.exp oneBar p [1 / 2] side 0 = some (rowAt Real.exp oneBar p
      (max (1 / 2) (1 / 1000000)) (sideOf side 0) side.isSome 0) :=
    labelEvent_of_side le_rfl (by rw [hlength]; norm_num) hside
  have hfirst := firstTouch_rowAt Real.exp oneBar p (max (1 / 2) (1 / 1000000)) (sideOf side 0)
    side.isSome 0 (by rw [hlength]; decide)
  have hafter := hfirst.after
  have hheld := hfirst.held
  rw [hlength] at hheld
  have ht1 : (rowAt Real.exp oneBar p (max (1 / 2) (1 / 1000000)) (sideOf side 0)
      side.isSome 0).t1 = 1 := le_antisymm (hheld.trans (min_le_right _ _)) hafter
  refine ⟨_, List.filterMap_cons_some hlabel, hfirst, rfl, ht1, rfl, rfl, ?_⟩
  have hret := ret_rowAt Real.exp oneBar p (max (1 / 2) (1 / 1000000)) (sideOf side 0)
    side.isSome 0
  rw [ht1] at hret
  exact hret

/-- The return of a mirrored trade is another one, and a stop may have a
positive return. -/
theorem returns_neither_mirrored_nor_signed :
    ¬ReturnsMirrored Real.exp ∧ ¬ReturnsSigned Real.exp := by
  constructor
  · intro h
    have hsame := h oneBar doubled [0] [1 / 2] [1] 1 doubled_positive one_pos
    obtain ⟨row, hrows, -, -, -, -, -, hret⟩ :=
      labels_twoBars doubled (some [1]) rfl one_ne_zero
    obtain ⟨row', hrows', -, -, -, -, -, hret'⟩ :=
      labels_twoBars (doubled.mirror 1) (some ([1].map (-·))) rfl
        (neg_ne_zero.mpr one_ne_zero)
    rw [hrows, hrows', List.forall₂_cons] at hsame
    have heq := hsame.1.2
    rw [hret, hret', PricePath.px_mirror, PricePath.px_mirror, sideOf_neg] at heq
    norm_num [doubled, PricePath.px, sideOf] at heq
  · intro h
    obtain ⟨row, hrows, hfirst, ht0, ht1, hdirection, hsigma, hret⟩ :=
      labels_twoBars spike none rfl one_ne_zero
    have hstop : row.touched = .stop := by
      rw [hfirst.stop, ht1, TouchesStop, hfirst.stopPrice, hdirection, ht0, hsigma]
      have hexp := Real.add_one_le_exp (-(1 / 2 : ℝ))
      norm_num [sideOf, oneBar, spike, PricePath.lo, PricePath.px] at hexp ⊢
      linarith
    have hsigned := h oneBar spike [0] [1 / 2] none spike_positive row
      (by rw [hrows]; exact List.mem_singleton_self row) (by rw [hsigma]; norm_num)
    have hneg := hsigned.2 hstop
    rw [hret] at hneg
    norm_num [sideOf, spike, PricePath.px] at hneg

end Labeling
end Sentinel
