import Sentinel.Core.SummerTime
import Sentinel.Strategy.ExecutionSignals

/-!
# The end of the day

What the execution signals propose about the evening's flat and the 17:00 roll after it, and
what of a day's setups is left after its flat.
-/

namespace Sentinel

namespace NewYork

open TzRules

/-! ## Between the changes of the clocks -/

theorem weekdayOf_sunday (year month n : ℤ) : weekdayOf (nthWeekday year month 6 n) = 6 := by
  simp only [nthWeekday, weekdayOf]
  omega

theorem exists_sunday {t t' : ℤ} (h : t ≤ t') (hne : ¬ (summer t ↔ summer t')) :
    ∃ day, weekdayOf day = 6 ∧ localNs t < day * dayNs + 2 * hourNs ∧
      day * dayNs + 2 * hourNs ≤ localNs t + (t' - t) := by
  by_cases hsummer : summer t
  · have hsummer' : ¬ summer t' := fun hs => hne (iff_of_true hsummer hs)
    have hswitch := switch_le h hsummer hsummer'
    have hend := hsummer.2
    simp only [usDstBoundsUtc] at hswitch hend
    refine ⟨_, weekdayOf_sunday (CivilDate.ofDay (dayOf t)).year 11 1, ?_, ?_⟩
    · rw [localNs, if_pos hsummer]
      omega
    · rw [localNs, if_pos hsummer]
      omega
  · have hsummer' : summer t' := by
      by_contra hs
      exact hne (iff_of_false hsummer hs)
    have hstart := hsummer'.1
    have hbefore : t < (usDstBoundsUtc (CivilDate.ofDay (dayOf t')).year).1 := by
      by_contra hlate
      rw [not_lt] at hlate
      -- else the year of both instants is that of the change
      have hday : nthWeekday (CivilDate.ofDay (dayOf t')).year 3 6 2 - 1 ≤ dayOf t := by
        refine (Int.le_ediv_iff_mul_le (show 0 < dayNs by decide)).mpr ?_
        simp only [usDstBoundsUtc] at hlate
        have hunits : 0 < dayNs ∧ 0 < hourNs := by decide
        rw [sub_mul]
        omega
      have hyear := CivilDate.year_ofDay_mono hday
      rw [switches_us.start_year] at hyear
      have hyear' := CivilDate.year_ofDay_mono
        (show dayOf t ≤ dayOf t' from Int.ediv_le_ediv (by decide) h)
      have hsame := le_antisymm hyear' hyear
      refine hsummer ⟨?_, ?_⟩
      · rwa [hsame]
      · rw [hsame]
        exact h.trans_lt hsummer'.2
    simp only [usDstBoundsUtc] at hstart hbefore
    refine ⟨_, weekdayOf_sunday (CivilDate.ofDay (dayOf t')).year 3 2, ?_, ?_⟩
    · rw [localNs, if_neg hsummer]
      omega
    · rw [localNs, if_neg hsummer]
      omega

theorem localNs_eq {t t' day : ℤ} (h : t ≤ t') (hday : weekdayOf day < 5)
    (hfrom : day * dayNs - 7 * hourNs ≤ localNs t)
    (hto : localNs t + (t' - t) < (day + 1) * dayNs) : localNs t' = localNs t + (t' - t) := by
  have hsame : summer t ↔ summer t' := by
    by_contra hne
    obtain ⟨sunday, hsunday, hafter, hbefore⟩ := exists_sunday h hne
    have hunits : dayNs = 86400000000000 ∧ hourNs = 3600000000000 := by decide
    simp only [weekdayOf, hunits.1, hunits.2] at *
    omega
  simp only [localNs, hsame]
  omega

end NewYork

open Float64 Causal Series

variable {F : Type} [Float64 F]

namespace ExecutionSignals

namespace Params

/-- `_validate`: the parameters it accepts. -/
structure Accepted (p : Params) : Prop where
  execSec : p.execSec = 900
  signalSec : 900 < p.signalSec ∧ 900 ∣ p.signalSec ∧ p.signalSec ∣ 86400
  setups : p.tradeInsideBars ∨ p.tradeFailures
  directions : p.allowLong ∨ p.allowShort
  rMultiple : 6 / 5 ≤ p.rMultiple
  stops : 0 ≤ p.minStopPips ∧ 0 ≤ p.minStopAtr ∧ 0 ≤ p.maxStopPips ∧ 0 ≤ p.minStopPct
  minStop : 0 < p.minStopPips ∨ 0 < p.minStopAtr
  maxStop : p.maxStopPips = 0 ∨ p.minStopPips < p.maxStopPips
  minBucketCoverage : 0 < p.minBucketCoverage ∧ p.minBucketCoverage ≤ 1
  atrWindow : 2 ≤ p.atrWindow
  minBarsBeforeFlat : 1 ≤ p.minBarsBeforeFlat
  ltfExpiryBars : 1 ≤ p.ltfExpiryBars
  times : 0 ≤ p.rthOpenNy ∧ p.rthOpenNy < p.flatNy ∧ p.flatNy < p.reopenNy ∧ p.reopenNy < 1440
  roll : p.flatNy < NewYork.fxRolloverNyMinute ∧ NewYork.fxRolloverNyMinute ≤ p.reopenNy

variable (p : Params)

/-! ## Up to the flat -/

def closeNs (tsNs : ℤ) : ℤ := tsNs + p.execSec * 10 ^ 9

def flatNs (tsNs : ℤ) : ℤ :=
  let closeMin := NewYork.nyMinute (p.closeNs tsNs)
  p.closeNs tsNs +
    ((if p.flatNy < closeMin then 1 else 0) * 1440 + p.flatNy - closeMin) * minuteNs

structure ClearOfRoll (tsNs horizonBars : ℤ) : Prop where
  held : horizonBars = (p.flatNs tsNs - p.closeNs tsNs) / (p.execSec * 10 ^ 9)
  roll : ∀ t, p.closeNs tsNs < t → t ≤ p.flatNs tsNs →
    NewYork.localNs t % dayNs ≠ NewYork.fxRolloverNyMinute * minuteNs
  entry : ¬ (p.flatNy < NewYork.nyMinute (p.closeNs tsNs) ∧
    NewYork.nyMinute (p.closeNs tsNs) < p.reopenNy)

def StraddlesFlat (tsNs : ℤ) : Prop :=
  p.inWindow (NewYork.nyMinute tsNs) = true ∧ p.flatNy < NewYork.nyMinute (p.closeNs tsNs) ∧
    NewYork.nyMinute (p.closeNs tsNs) < p.reopenNy

instance (tsNs : ℤ) : Decidable (p.StraddlesFlat tsNs) := by
  delta StraddlesFlat
  infer_instance

variable {p}

variable (row : RunRow F) (s : RunState F)

variable (p) in
def opened : RunState F :=
  p.rearm row (if p.inWindow row.nyMinute then tick { s with said := Entry.blank }
    else { s with said := Entry.blank })

theorem runStep_eq (s : RunState F) (row : RunRow F) :
    p.runStep s row =
      { p.flatten row (if p.inWindow row.nyMinute then p.execute row (p.opened row s)
          else p.opened row s) with previous := some row } := rfl

theorem said_flatten : (p.flatten row s).said = s.said := by
  rw [flatten]
  split <;> rfl

theorem said_opened : (p.opened row s).said = Entry.blank := by
  rw [opened, rearm]
  split_ifs <;> rfl

theorem inWindow_of_entry {row : RunRow F} {s : RunState F}
    (h : (p.runStep s row).said.entry ≠ 0) : p.inWindow row.nyMinute = true := by
  by_contra hout
  refine h ?_
  simp only [runStep_eq, if_neg hout, said_flatten, said_opened]
  rfl

theorem inWindow_of_run {f : Frame F} {i : ℕ} (h : (p.run f i).said.entry ≠ 0) :
    p.inWindow (NewYork.nyMinute (f.stamps i)) = true := by
  rcases i with _ | i
  · exact inWindow_of_entry h
  · exact inWindow_of_entry h

theorem horizonBars_levelSignal {terms : SignalTerms F} {close stop target least : F}
    {signal : StrategySignal F} (h : levelSignal terms close stop target least = some signal) :
    signal.horizonBars = terms.horizonBars := by
  simp only [levelSignal, Option.ite_none_left_eq_some] at h
  rw [← Option.some.inj h.2.2.2]
  rfl

theorem generate_spec {letters : Letters} {f : Frame F} {instrument : String} {i : ℕ}
    {signal : StrategySignal F} (h : p.generate letters f instrument i = some signal) :
    (p.run f i).said.entry ≠ 0 ∧ p.barsToFlat (f.stamps i) = some signal.horizonBars := by
  simp only [generate, Option.ite_none_left_eq_some, Option.bind_eq_some_iff] at h
  obtain ⟨-, hblank, bars, hbars, -, -, -, h⟩ := h
  simp only [signalOf, Option.ite_none_left_eq_some] at h
  have hhorizon := horizonBars_levelSignal h.2.2.2
  by_cases hexec : p.ExecOk f
  · rw [indicators, if_pos hexec] at hblank hbars
    refine ⟨?_, hbars.trans (congrArg some hhorizon.symm)⟩
    simpa using hblank
  · rw [indicators, if_neg hexec] at hblank
    exact absurd rfl hblank

theorem clearOfRoll_of_barsToFlat (hp : p.Accepted) {tsNs bars : ℤ}
    (hbars : p.barsToFlat tsNs = some bars)
    (hentry : ¬ (p.flatNy < NewYork.nyMinute (p.closeNs tsNs) ∧
      NewYork.nyMinute (p.closeNs tsNs) < p.reopenNy)) : p.ClearOfRoll tsNs bars := by
  obtain ⟨hopen, hflat, hreopen, hday⟩ := hp.times
  obtain ⟨hroll, hroll'⟩ := hp.roll
  have hunits : dayNs = 86400000000000 ∧ hourNs = 3600000000000 ∧ minuteNs = 60000000000 ∧
      NewYork.fxRolloverNyMinute = 1020 := by decide
  obtain ⟨hdayNs, hhourNs, hminuteNs, hrollover⟩ := hunits
  simp only [barsToFlat, Option.ite_none_left_eq_some, Option.some.injEq,
    add_sub_cancel_left] at hbars
  obtain ⟨hweekday, hminutes⟩ := hbars
  refine ⟨?_, ?_, hentry⟩
  · rw [← hminutes, flatNs, hp.execSec, hminuteNs, closeNs, hp.execSec, add_sub_cancel_left]
    push_cast
    omega
  · intro t hafter hbefore
    change ¬ 5 ≤ weekdayOf (NewYork.nyDay (p.closeNs tsNs) +
      if p.flatNy < NewYork.nyMinute (p.closeNs tsNs) then 1 else 0) at hweekday
    rw [flatNs] at hbefore
    generalize p.closeNs tsNs = c at hafter hbefore hweekday hentry
    have hkept := NewYork.localNs_eq hafter.le (not_le.mp hweekday)
    simp only [NewYork.nyDay, NewYork.nyMinute, dayOf, hdayNs, hhourNs, hminuteNs,
      hrollover] at hentry hweekday hbefore hkept hroll hroll' ⊢
    generalize NewYork.localNs c = l at hentry hweekday hbefore hkept
    split_ifs at hweekday hbefore hkept with hlate
    · rw [hkept (by omega) (by omega)]
      omega
    · rw [hkept (by omega) (by omega)]
      omega

/-- A signal is clear of the roll exactly when its bar does not straddle the flat. -/
theorem clearOfRoll_iff (hp : p.Accepted) {letters : Letters} {f : Frame F}
    {instrument : String} {i : ℕ} {signal : StrategySignal F}
    (h : p.generate letters f instrument i = some signal) :
    p.ClearOfRoll (f.stamps i) signal.horizonBars ↔ ¬ p.StraddlesFlat (f.stamps i) := by
  obtain ⟨hentry, hbars⟩ := generate_spec h
  constructor
  · intro hclear hstraddles
    exact hclear.entry hstraddles.2
  · intro hnot
    exact clearOfRoll_of_barsToFlat hp hbars fun hbetween =>
      hnot ⟨inWindow_of_run hentry, hbetween⟩

/-! ## A bar that straddles the flat -/

def lateParams : Params :=
  { signalSec := 14400, htfAnchor := .utc, atrWindow := 2, triggerWindow := .period }

theorem accepted_lateParams : lateParams.Accepted := by
  constructor <;> decide +kernel

def lateFrame : Frame (Option ℚ) :=
  (List.range 301).map fun i : ℕ =>
    let range : ℚ := if i < 265 then 0 else if i < 281 then 10 else if i < 297 then 5 else 0
    { openPrice := some 100, high := some (100 + range), low := some (100 - range)
      close := some (if i = 300 then 106 else 100)
      tsNs := (20460 * 1440 + 20 * 60 + 45 - (300 - i) * 15) * minuteNs, volume := some 1 }

theorem exists_signal_lateFrame :
    ∃ signal, lateParams.generate Letters.ascii lateFrame "EUR_USD" 300 = some signal :=
  Option.isSome_iff_exists.mp (by decide +kernel)

def morningFrame : Frame (Option ℚ) :=
  lateFrame.map fun r => { r with tsNs := r.tsNs - 240 * minuteNs }

theorem clearOfRoll_iff_morningFrame :
    ∃ signal, lateParams.generate Letters.ascii morningFrame "EUR_USD" 300 = some signal ∧
      lateParams.ClearOfRoll (morningFrame.stamps 300) signal.horizonBars := by
  have hsome : (lateParams.generate Letters.ascii morningFrame "EUR_USD" 300).isSome := by
    decide +kernel
  obtain ⟨signal, hsignal⟩ := Option.isSome_iff_exists.mp hsome
  exact ⟨signal, hsignal, (clearOfRoll_iff accepted_lateParams hsignal).mpr (by decide +kernel)⟩

/-- A trade is entered at 16:00, a minute after the flat. -/
theorem not_clearOfRoll_lateFrame :
    ¬ ∀ (p : Params) (f : Frame (Option ℚ)) (instrument : String) (i : ℕ)
      (signal : StrategySignal (Option ℚ)), p.Accepted → p.session ≠ .full →
        p.generate Letters.ascii f instrument i = some signal →
          p.ClearOfRoll (f.stamps i) signal.horizonBars := by
  intro hall
  obtain ⟨signal, hsignal⟩ := exists_signal_lateFrame
  have hclear := hall _ _ _ _ signal accepted_lateParams (by decide) hsignal
  exact hclear.entry (by decide +kernel)

/-! ## What an entry rests on -/

structure Marks where
  armedAt : ℤ := 0
  biasAt : ℤ := 0
  setupAt : ℤ := 0
  ltfAt : ℤ := 0

section Marks

variable (p : Params) (row : RunRow F) (tsNs : ℤ) (s : RunState F) (m : Marks)

def openMarks : Marks :=
  if s.previous.all fun prev => row.period ≠ prev.period then { m with armedAt := tsNs } else m

def biasMarks : Marks :=
  if s.armed ∧ s.bias = 0 ∧ p.broken row s ≠ 0 then
    { m with biasAt := tsNs, setupAt := m.armedAt }
  else m

def triggerMarks : Marks :=
  if (p.armTrigger row { s with ltfLeft := p.ltfExpiryBars + 1 }).ltfLeft = p.ltfExpiryBars then
    { m with ltfAt := tsNs }
  else m

def marksAt : Marks :=
  let m := openMarks row tsNs s m
  if p.executionMode = .ltf then p.biasMarks row tsNs (p.opened row s) m else m

def marksAfter : Marks :=
  if ¬ p.inWindow row.nyMinute then openMarks row tsNs s m
  else if p.executionMode = .ltf then
    p.triggerMarks row tsNs (enterTrigger row (p.takeBias row (p.opened row s)))
      (p.marksAt row tsNs s m)
  else p.marksAt row tsNs s m

def basis : List ℤ :=
  match p.executionMode with
  | .onBreak => [m.armedAt]
  | .ltf => [m.setupAt, m.biasAt, m.ltfAt]

def past (f : Frame F) : ℕ → RunState F × Marks
  | 0 => (RunState.idle, {})
  | i + 1 => (p.run f i,
      p.marksAfter (p.runRow f (f.bars i) (f.stamps i)) (f.stamps i) (past f i).1 (past f i).2)

def runBasis (f : Frame F) (i : ℕ) : List ℤ :=
  p.basis (p.marksAt (p.runRow f (f.bars i) (f.stamps i)) (f.stamps i) (p.past f i).1
    (p.past f i).2)

def FlatBetween (a b : ℤ) : Prop :=
  ∃ t, a < t ∧ t ≤ b ∧ NewYork.localNs t % dayNs = p.flatNy * minuteNs

def Pending : Prop := s.armed = true ∨ s.bias ≠ 0 ∨ isFinite s.ltfHigh = true

instance : Decidable (Pending s) := inferInstanceAs (Decidable (_ ∨ _ ∨ _))

/-- Where a flat time lies between a row and the next and something is pending, the next row
is the reset, and outside the session. -/
def Clears (f : Frame F) (i : ℕ) : Prop :=
  p.FlatBetween (f.stamps i) (f.stamps (i + 1)) → Pending (p.run f i) →
    NewYork.nyMinute (f.stamps i) < p.flatNy ∧
      p.flatNy ≤ NewYork.nyMinute (f.stamps (i + 1)) ∧
      ¬ p.inWindow (NewYork.nyMinute (f.stamps (i + 1)))

/-- Nothing pending is from before a flat. -/
structure Fresh : Prop where
  armed : s.armed = true → ¬ p.FlatBetween m.armedAt tsNs
  bias : s.bias ≠ 0 → ¬ p.FlatBetween m.biasAt tsNs ∧ ¬ p.FlatBetween m.setupAt tsNs
  ltf : isFinite s.ltfHigh = true → ¬ p.FlatBetween m.ltfAt tsNs

end Marks

variable {row : RunRow F} {t : ℤ} {s : RunState F} {m : Marks}

theorem not_flatBetween_self : ¬ p.FlatBetween t t :=
  fun ⟨_, hafter, hbefore, _⟩ => absurd (hafter.trans_le hbefore) (lt_irrefl t)

theorem Fresh.of_idle (harmed : s.armed = false) (hbias : s.bias = 0)
    (hltf : isFinite s.ltfHigh = false) : p.Fresh t s m :=
  ⟨fun h => by simp [harmed] at h, fun h => absurd hbias h, fun h => by simp [hltf] at h⟩

theorem said_takeBias : (p.takeBias row s).said = s.said := by
  rw [takeBias]
  dsimp only
  split_ifs <;> rfl

theorem said_armTrigger : (p.armTrigger row s).said = s.said := by
  rw [armTrigger]
  split
  · rfl
  · dsimp only
    split_ifs <;> rfl

theorem pending_of_enterTrigger (hblank : s.said.entry = 0)
    (h : (enterTrigger row s).said.entry ≠ 0) : s.bias ≠ 0 ∧ isFinite s.ltfHigh = true := by
  rw [enterTrigger] at h
  split_ifs at h with hall
  · simp only [Bool.and_eq_true, decide_eq_true_eq] at hall
    exact hall.1
  · exact absurd hblank h

namespace Fresh

variable (h : p.Fresh t s m)
include h

theorem later {t' : ℤ} (hclear : ¬ p.FlatBetween t t') : p.Fresh t' s m := by
  have hkeep : ∀ a, ¬ p.FlatBetween a t → ¬ p.FlatBetween a t' := by
    rintro a hold ⟨x, hafter, hbefore, hat⟩
    rcases le_or_gt x t with hle | hgt
    · exact hold ⟨x, hafter, hle, hat⟩
    · exact hclear ⟨x, hgt, hbefore, hat⟩
  exact ⟨fun ha => hkeep _ (h.armed ha), fun hb => (h.bias hb).imp (hkeep _) (hkeep _),
    fun hl => hkeep _ (h.ltf hl)⟩

theorem tick (hnan : isFinite (nan : F) = false) : p.Fresh t (tick s) m := by
  refine ⟨h.armed, fun hb => ?_, fun hl => ?_⟩
  · simp only [Params.tick] at hb
    split_ifs at hb
    · exact absurd rfl hb
    · exact h.bias hb
  · simp only [Params.tick] at hl
    split_ifs at hl
    · exact absurd (hnan.symm.trans hl) (by decide)
    · exact h.ltf hl

theorem rearm : p.Fresh t (p.rearm row s) (openMarks row t s m) := by
  rw [Params.rearm, openMarks]
  split_ifs
  · exact ⟨fun _ => not_flatBetween_self, h.bias, h.ltf⟩
  · exact ⟨fun harmed => absurd harmed Bool.false_ne_true, h.bias, h.ltf⟩
  · exact h

theorem opened (hnan : isFinite (nan : F) = false) :
    p.Fresh t (p.opened row s) (openMarks row t s m) := by
  have hblank : p.Fresh t { s with said := Entry.blank } m := ⟨h.armed, h.bias, h.ltf⟩
  rw [Params.opened]
  split_ifs
  · exact (hblank.tick hnan).rearm
  · exact hblank.rearm

theorem takeBias : p.Fresh t (p.takeBias row s) (p.biasMarks row t s m) := by
  rw [Params.takeBias, biasMarks]
  by_cases hset : (s.armed && decide (s.bias = 0)) = true
  · have hset' : s.armed = true ∧ s.bias = 0 := by simpa using hset
    rw [if_pos hset]
    by_cases hbreaks : p.broken row s ≠ 0
    · have hmark : s.armed = true ∧ s.bias = 0 ∧ p.broken row s ≠ 0 :=
        ⟨hset'.1, hset'.2, hbreaks⟩
      rw [if_pos hmark]
      simp only [if_pos hbreaks]
      exact ⟨fun harmed => absurd harmed Bool.false_ne_true,
        fun _ => ⟨not_flatBetween_self, h.armed hset'.1⟩, h.ltf⟩
    · have hmark : ¬ (s.armed = true ∧ s.bias = 0 ∧ p.broken row s ≠ 0) :=
        fun hall => hbreaks hall.2.2
      rw [if_neg hmark]
      simp only [if_neg hbreaks]
      exact h
  · have hmark : ¬ (s.armed = true ∧ s.bias = 0 ∧ p.broken row s ≠ 0) :=
      fun hall => hset (by simp [hall.1, hall.2.1])
    rw [if_neg hset, if_neg hmark]
    exact h

theorem enterTrigger (hnan : isFinite (nan : F) = false) :
    p.Fresh t (enterTrigger row s) m := by
  rw [Params.enterTrigger]
  split_ifs
  · exact ⟨h.armed, fun hb => absurd rfl hb, fun hl => absurd (hnan.symm.trans hl) (by decide)⟩
  · exact h

theorem armTrigger : p.Fresh t (p.armTrigger row s) (p.triggerMarks row t s m) := by
  rw [triggerMarks, Params.armTrigger, Params.armTrigger]
  rcases s.previous with _ | prev
  · simpa using h
  · dsimp only
    split_ifs
    all_goals first
      | exact ⟨h.armed, h.bias, fun _ => not_flatBetween_self⟩
      | exact h
      | exact absurd rfl ‹¬ _›

theorem executeBreak : p.Fresh t (p.executeBreak row s) m := by
  rw [Params.executeBreak]
  split_ifs with hunarmed
  · exact h
  · exact ⟨fun _ => h.armed (by simpa using hunarmed), h.bias, h.ltf⟩

theorem flatten (hnan : isFinite (nan : F) = false) : p.Fresh t (p.flatten row s) m := by
  rw [Params.flatten]
  split_ifs
  · exact of_idle rfl rfl hnan
  · exact h

theorem step (hnan : isFinite (nan : F) = false) :
    p.Fresh t (p.runStep s row) (p.marksAfter row t s m) ∧
      ((p.runStep s row).said.entry ≠ 0 →
        ∀ a ∈ p.basis (p.marksAt row t s m), ¬ p.FlatBetween a t) := by
  have hopened : p.Fresh t (p.opened row s) (openMarks row t s m) := h.opened hnan
  have hlast : ∀ {u : RunState F} {n : Marks}, p.Fresh t u n →
      p.Fresh t { p.flatten row u with previous := some row } n := by
    intro u n hu
    have hflat : p.Fresh t (p.flatten row u) n := hu.flatten hnan
    exact ⟨hflat.armed, hflat.bias, hflat.ltf⟩
  have hblank : (p.opened row s).said.entry = 0 := by
    rw [said_opened]
    rfl
  rw [runStep_eq, marksAfter]
  by_cases hwindow : p.inWindow row.nyMinute = true
  · rw [if_pos hwindow, if_neg (not_not.mpr hwindow)]
    change _ ∧ ((p.flatten row (p.execute row (p.opened row s))).said.entry ≠ 0 → _)
    rw [said_flatten, execute]
    cases hmode : p.executionMode
    · simp only [marksAt, basis, hmode, reduceCtorEq, if_false, List.forall_mem_singleton]
      refine ⟨hlast hopened.executeBreak, fun hentry => hopened.armed ?_⟩
      by_contra hunarmed
      rw [Params.executeBreak, if_pos (by simp [hunarmed])] at hentry
      exact hentry hblank
    · have hbias : p.Fresh t (p.takeBias row (p.opened row s))
          (p.biasMarks row t (p.opened row s) (openMarks row t s m)) := hopened.takeBias
      simp only [marksAt, basis, hmode, if_true, List.forall_mem_cons, List.not_mem_nil,
        false_implies, implies_true, and_true]
      refine ⟨hlast (hbias.enterTrigger hnan).armTrigger, fun hentry => ?_⟩
      rw [said_armTrigger] at hentry
      obtain ⟨hpending, hfinite⟩ := pending_of_enterTrigger (by rwa [said_takeBias]) hentry
      exact ⟨(hbias.bias hpending).2, (hbias.bias hpending).1, hbias.ltf hfinite⟩
  · rw [if_neg hwindow, if_pos hwindow]
    refine ⟨hlast hopened, fun hentry => absurd ?_ hentry⟩
    change (p.flatten row (p.opened row s)).said.entry = 0
    rw [said_flatten, hblank]

end Fresh

/-! ## Over the whole run -/

theorem previous_opened : (p.opened row s).previous = s.previous := by
  rw [opened, rearm]
  split_ifs <;> rfl

theorem run_eq (f : Frame F) (i : ℕ) :
    p.run f i = p.runStep (p.past f i).1 (p.runRow f (f.bars i) (f.stamps i)) := by
  cases i <;> rfl

theorem Fresh.of_reset (hnan : isFinite (nan : F) = false) {prev : RunRow F}
    (hprevious : s.previous = some prev) (hbefore : prev.nyMinute < p.flatNy)
    (hreset : p.flatNy ≤ row.nyMinute) (hout : ¬ p.inWindow row.nyMinute) :
    p.Fresh t (p.runStep s row) m := by
  have hmeets : (p.opened row s).previous.any fun prev =>
      p.flatNy ≤ row.nyMinute ∧ prev.nyMinute < p.flatNy := by
    rw [previous_opened, hprevious]
    exact decide_eq_true ⟨hreset, hbefore⟩
  rw [runStep_eq, if_neg hout, Params.flatten, if_pos hmeets]
  exact of_idle rfl rfl hnan

theorem fresh_succ (hnan : isFinite (nan : F) = false) {f : Frame F} {i : ℕ}
    (hclears : p.Clears f i) (h : p.Fresh (f.stamps i) (p.run f i) (p.past f (i + 1)).2) :
    p.Fresh (f.stamps (i + 1)) (p.run f (i + 1)) (p.past f (i + 2)).2 ∧
      ((p.run f (i + 1)).said.entry ≠ 0 →
        ∀ a ∈ p.runBasis f (i + 1), ¬ p.FlatBetween a (f.stamps (i + 1))) := by
  rw [run_eq]
  by_cases hflat : p.FlatBetween (f.stamps i) (f.stamps (i + 1))
  · by_cases hpending : Pending (p.run f i)
    · -- the reset, of a row that is not executed
      obtain ⟨hbefore, hreset, hout⟩ := hclears hflat hpending
      have hprevious : (p.run f i).previous = some (p.runRow f (f.bars i) (f.stamps i)) := by
        rw [run_eq]
        rfl
      exact ⟨Fresh.of_reset hnan hprevious hbefore hreset hout,
        fun hentry => absurd (inWindow_of_entry hentry) hout⟩
    · simp only [Pending, not_or, not_not, Bool.not_eq_true] at hpending
      exact (Fresh.of_idle hpending.1 hpending.2.1 hpending.2.2).step hnan
  · exact (h.later hflat).step hnan

/-- Where every reset finds its row, no entry rests on what was recorded before a flat. -/
theorem entries_after_flat (hnan : isFinite (nan : F) = false) (f : Frame F)
    (h : ∀ i, i + 1 < f.length → p.Clears f i) (i : ℕ) (hi : i < f.length)
    (hentry : (p.run f i).said.entry ≠ 0) (a : ℤ) (ha : a ∈ p.runBasis f i) :
    ¬ p.FlatBetween a (f.stamps i) := by
  have hall : ∀ i, i < f.length → p.Fresh (f.stamps i) (p.run f i) (p.past f (i + 1)).2 ∧
      ((p.run f i).said.entry ≠ 0 →
        ∀ a ∈ p.runBasis f i, ¬ p.FlatBetween a (f.stamps i)) := by
    intro i
    induction i with
    | zero => exact fun _ => (Fresh.of_idle rfl rfl hnan).step hnan
    | succ i ih => exact fun hi => fresh_succ hnan (h i hi) (ih (Nat.lt_of_succ_lt hi)).1
  exact (hall i hi).2 hentry a ha

/-! ## Bars that are missing around the flat -/

def earlyParams : Params := { lateParams with flatNy := 915 }

def earlyFrame (count last : ℕ) : Frame (Option ℚ) :=
  (List.range count ++ [last]).map fun i : ℕ =>
    let range : ℚ := if i = last then 6 else if i < 16 then 10 else if i < 32 then 5 else 2
    { openPrice := some 100, high := some (100 + range), low := some (100 - range)
      close := some (if i = last then 106 else 100)
      tsNs := (20460 * 1440 + 720 + i * 15) * minuteNs, volume := some 1 }

/-- The setup of 15:00 is reset, and the one of 19:00 is entered. -/
theorem entries_after_flat_earlyFrame :
    Pending (earlyParams.run (earlyFrame 48 48) 32) ∧
      earlyParams.FlatBetween ((earlyFrame 48 48).stamps 32) ((earlyFrame 48 48).stamps 48) ∧
      (earlyParams.run (earlyFrame 48 48) 48).said.entry ≠ 0 ∧
      ∀ a ∈ earlyParams.runBasis (earlyFrame 48 48) 48,
        ¬ earlyParams.FlatBetween a ((earlyFrame 48 48).stamps 48) := by
  have hentry : (earlyParams.run (earlyFrame 48 48) 48).said.entry ≠ 0 := by decide +kernel
  have honly : ∀ i < 48, Pending (earlyParams.run (earlyFrame 48 48) i) → i = 32 := by
    decide +kernel
  refine ⟨by decide +kernel,
    ⟨(20460 * 1440 + 1215) * minuteNs, by decide +kernel, by decide +kernel, by decide +kernel⟩,
    hentry, entries_after_flat rfl (earlyFrame 48 48) ?_ 48 (by decide) hentry⟩
  intro i hi _ hpending
  have hrow : i = 32 := honly i (Nat.lt_of_succ_lt_succ hi) hpending
  subst hrow
  decide +kernel

/-- Where the bars up to 18:00 are missing, the setup of 15:00 is entered then: the session is
open again. -/
theorem not_after_flat_earlyFrame :
    ¬ ∀ (p : Params) (f : Frame (Option ℚ)) (i : ℕ), p.Accepted → i < f.length →
      (p.run f i).said.entry ≠ 0 → ∀ a ∈ p.runBasis f i, ¬ p.FlatBetween a (f.stamps i) := by
  intro hall
  have haccepted : earlyParams.Accepted := by
    constructor <;> decide +kernel
  refine hall earlyParams (earlyFrame 33 44) 33 haccepted (by decide) (by decide +kernel)
    ((20460 * 1440 + 1200) * minuteNs) (by decide +kernel)
    ⟨(20460 * 1440 + 1215) * minuteNs, by decide +kernel, by decide +kernel, by decide +kernel⟩

end Params

end ExecutionSignals

end Sentinel
