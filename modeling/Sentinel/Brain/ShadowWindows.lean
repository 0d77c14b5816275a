import Sentinel.Brain.ShadowBook

/-!
# Scoring a shadow row from a window

A call sees of every series the bars between the ones its feed has dropped and
the ones still to come.  Where the window has lost no bar that matters, and no
row is expired, what a call stores is what the whole series gives; otherwise the
path begins at the first bar that is left, and the clock may end it before
its horizon.
-/

namespace Sentinel

/-! ## Windows of a series -/

structure FeedWindow where
  lost : ℕ
  shown : ℕ

def FeedWindow.frame (w : FeedWindow) (series : List (ℤ × BarRow)) : List (ℤ × BarRow) :=
  (series.drop w.lost).take w.shown

def PathResult.outcome (p : PathResult) : Bool × Option Dec × ExitKind :=
  (p.resolved, p.outcomeR, p.exit)

namespace ShadowSignal

variable {s : ShadowSignal}

def Undecided (s : ShadowSignal) (bars : List BarRow) : Prop :=
  bars.length < s.horizon ∧ ∀ bar ∈ bars, s.touch bar = none

instance (s : ShadowSignal) (bars : List BarRow) : Decidable (s.Undecided bars) := by
  delta Undecided
  infer_instance

/-- The window begins at the first bar after the signal; or no bar lost from its
front touches, and one that it shows does, within the horizon counted from the
first lost one. -/
def Undisturbed (s : ShadowSignal) (lost shown : List BarRow) : Prop :=
  lost = [] ∨ (∀ bar ∈ lost, s.touch bar = none) ∧
    ∃ bar ∈ shown.take (s.horizon - lost.length), (s.touch bar).isSome

instance (s : ShadowSignal) (lost shown : List BarRow) : Decidable (s.Undisturbed lost shown) := by
  delta Undisturbed
  infer_instance

theorem resolved_resolvePath_iff (hs : ¬ s.Invalid) (bars : List BarRow) :
    (s.resolvePath bars).resolved = false ↔ s.Undecided bars := by
  rw [resolvePath_of_valid hs, resolved_walk s.horizon_pos, Nat.zero_add]
  rfl

theorem exists_first_touch {bars : List BarRow} (h : ∃ bar ∈ bars, (s.touch bar).isSome) :
    ∃ free bar later r exit, bars = free ++ bar :: later ∧ (∀ b ∈ free, s.touch b = none) ∧
      s.touch bar = some (r, exit) := by
  obtain ⟨bar, hfind⟩ := Option.isSome_iff_exists.mp
    (List.find?_isSome (p := fun b => (s.touch b).isSome).mpr h)
  obtain ⟨htouch, free, later, hsplit, hfree⟩ := List.find?_eq_some_iff_append.mp hfind
  obtain ⟨⟨r, exit⟩, hbar⟩ := Option.isSome_iff_exists.mp htouch
  exact ⟨free, bar, later, r, exit, hsplit, fun b hb => by simpa using hfree b hb, hbar⟩

theorem outcome_resolvePath {lost shown : List BarRow} (later : List BarRow)
    (hs : ¬ s.Invalid) (hdecided : ¬ s.Undecided shown) (h : s.Undisturbed lost shown) :
    (s.resolvePath (lost ++ (shown ++ later))).outcome = (s.resolvePath shown).outcome := by
  have hresolved : (s.resolvePath shown).resolved = true := by
    rw [← Bool.not_eq_false]
    exact mt (resolved_resolvePath_iff hs shown).mp hdecided
  simp only [resolvePath_of_valid hs] at hresolved ⊢
  rcases h with rfl | ⟨hlost, htouch⟩
  · rw [List.nil_append, walk_append_of_resolved later hresolved]
  · obtain ⟨free, bar, rest, r, exit, hsplit, hfree, hbar⟩ := exists_first_touch htouch
    have hlen : free.length + 1 ≤ s.horizon - lost.length := by
      have htake := List.length_take_le (s.horizon - lost.length) shown
      rw [hsplit, List.length_append, List.length_cons] at htake
      omega
    have hshown : shown = free ++ bar :: (rest ++ shown.drop (s.horizon - lost.length)) := by
      conv_lhs => rw [← List.take_append_drop (s.horizon - lost.length) shown, hsplit]
      rw [List.append_assoc, List.cons_append]
    have hwhole : lost ++ (shown ++ later) = (lost ++ free) ++ bar ::
        (rest ++ shown.drop (s.horizon - lost.length) ++ later) := by
      conv_lhs => rw [hshown]
      simp
    have hall : ∀ b ∈ lost ++ free, s.touch b = none := by
      intro b hb
      rcases List.mem_append.mp hb with hb | hb
      · exact hlost b hb
      · exact hfree b hb
    rw [hwhole, walk_of_first_touch _ hall hbar (by rw [List.length_append]; omega), hshown,
      walk_of_first_touch _ hfree hbar (by omega)]
    rfl

theorem after_append (s : ShadowSignal) (l l' : List (ℤ × BarRow)) :
    s.after (l ++ l') = s.after l ++ s.after l' := by
  simp [after]

theorem after_eq (s : ShadowSignal) (series : List (ℤ × BarRow)) (w : FeedWindow) :
    s.after series = s.after (series.take w.lost) ++
      (s.after (w.frame series) ++ s.after ((series.drop w.lost).drop w.shown)) := by
  rw [← after_append, ← after_append, FeedWindow.frame, List.take_append_drop,
    List.take_append_drop]

/-- Where a call may score the row of a signal: it does not come more than three
horizons late while the path is undecided, and its window has lost no bar that
matters when it decides it. -/
def SeesPath (s : ShadowSignal) (series : List (ℤ × BarRow)) (w : FeedWindow)
    (nowNs : ℤ) : Prop :=
  if w.frame series = [] then ¬ s.Late nowNs
  else
    s.after (w.frame series) = [] ∨ s.Invalid ∨
      if s.Undecided (s.after (w.frame series)) then ¬ s.Late nowNs
      else s.Undisturbed (s.after (series.take w.lost)) (s.after (w.frame series))

instance (s : ShadowSignal) (series : List (ℤ × BarRow)) (w : FeedWindow) (nowNs : ℤ) :
    Decidable (s.SeesPath series w nowNs) := by
  delta SeesPath
  infer_instance

end ShadowSignal

/-! ## One row -/

namespace ShadowRow

variable {r : ShadowRow} {frame : List (ℤ × BarRow)} {nowNs : ℤ} {o : PathResult}

theorem score_cases (h : r.score frame nowNs = some o) :
    (r.signal.Late nowNs ∧ o.resolved = true ∧ (frame = [] ∨
      frame ≠ [] ∧ r.signal.after frame ≠ [] ∧
        (r.signal.resolvePath (r.signal.after frame)).resolved = false)) ∨
    (frame ≠ [] ∧ r.signal.after frame ≠ [] ∧
      o = r.signal.resolvePath (r.signal.after frame)) := by
  rw [score] at h
  by_cases hframe : frame = []
  · rw [if_pos hframe] at h
    obtain ⟨hlate, ho⟩ := Option.ite_none_right_eq_some.mp h
    exact .inl ⟨hlate, by rw [← Option.some.inj ho], .inl hframe⟩
  · rw [if_neg hframe] at h
    rcases hlast : (r.signal.after frame).getLast? with _ | last
    · rw [hlast] at h
      cases h
    · have hne : r.signal.after frame ≠ [] := by
        intro hnil
        rw [hnil] at hlast
        cases hlast
      rw [hlast] at h
      obtain ⟨-, ho⟩ := Option.ite_none_right_eq_some.mp h
      rw [← Option.some.inj ho]
      by_cases hexpired : (r.signal.resolvePath (r.signal.after frame)).resolved = false ∧
          r.signal.Late nowNs
      · rw [ShadowSignal.outcomeAt, if_pos hexpired]
        exact .inl ⟨hexpired.2, rfl, .inr ⟨hframe, hne, hexpired.1⟩⟩
      · rw [ShadowSignal.outcomeAt, if_neg hexpired]
        exact .inr ⟨hframe, hne, rfl⟩

theorem outcomeR_score (h : r.score frame nowNs = some o) (hopen : o.resolved = false) :
    o.outcomeR = none := by
  rcases score_cases h with ⟨-, hresolved, -⟩ | ⟨-, -, rfl⟩
  · rw [hresolved] at hopen
    cases hopen
  · exact ShadowSignal.outcomeR_resolvePath hopen

theorem outcome_score {series : List (ℤ × BarRow)} {w : FeedWindow}
    (hsees : r.signal.SeesPath series w nowNs)
    (h : r.score (w.frame series) nowNs = some o) (hresolved : o.resolved = true) :
    o.outcome = (r.signal.resolvePath (r.signal.after series)).outcome := by
  rw [ShadowSignal.SeesPath] at hsees
  rcases score_cases h with ⟨hlate, -, hnil | ⟨hframe, hne, hopen⟩⟩ | ⟨hframe, hne, rfl⟩
  · rw [if_pos hnil] at hsees
    exact absurd hlate hsees
  · rw [if_neg hframe] at hsees
    have hvalid : ¬ r.signal.Invalid := by
      intro hs
      rw [ShadowSignal.resolvePath_of_invalid hs] at hopen
      cases hopen
    rcases hsees with hnil | hs | hsees
    · exact absurd hnil hne
    · exact absurd hs hvalid
    · rw [if_pos ((ShadowSignal.resolved_resolvePath_iff hvalid _).mp hopen)] at hsees
      exact absurd hlate hsees
  · rw [if_neg hframe] at hsees
    by_cases hs : r.signal.Invalid
    · rw [ShadowSignal.resolvePath_of_invalid hs, ShadowSignal.resolvePath_of_invalid hs]
    · have hdecided : ¬ r.signal.Undecided (r.signal.after (w.frame series)) := by
        rw [← ShadowSignal.resolved_resolvePath_iff hs, hresolved]
        exact Bool.true_eq_false.mp
      rcases hsees with hnil | hinvalid | hsees
      · exact absurd hnil hne
      · exact absurd hinvalid hs
      · rw [if_neg hdecided] at hsees
        rw [r.signal.after_eq series w]
        exact (ShadowSignal.outcome_resolvePath _ hs hdecided hsees).symm

def scored (r : ShadowRow) (frames : ShadowFrames) (nowNs : ℤ) : ShadowRow :=
  match r.score (frames r.signal.timeframe r.signal.instrument) nowNs with
  | none => r
  | some o => r.store o

variable {frames : ShadowFrames}

theorem scored_of_none
    (h : r.score (frames r.signal.timeframe r.signal.instrument) nowNs = none) :
    r.scored frames nowNs = r := by
  rw [scored, h]

theorem scored_of_some
    (h : r.score (frames r.signal.timeframe r.signal.instrument) nowNs = some o) :
    r.scored frames nowNs = r.store o := by
  rw [scored, h]

end ShadowRow

/-! ## One call -/

namespace ShadowBook

variable {b : ShadowBook} {frames : ShadowFrames} {nowNs : ℤ} {limit : ℕ} {key : String}

theorem get?_scoreRow_of_ne {r : ShadowRow} (h : r.signal.key ≠ key) :
    (scoreRow frames nowNs b r).rows.get? key = b.rows.get? key := by
  rw [scoreRow]
  split
  · rfl
  · exact Dict.get?_adjust_of_ne _ h.symm _

theorem get?_scoreRow_self {r : ShadowRow} (hkey : r.signal.key = key)
    (h : b.rows.get? key = some r ∨ b.rows.get? key = some (r.scored frames nowNs)) :
    (scoreRow frames nowNs b r).rows.get? key = some (r.scored frames nowNs) := by
  subst hkey
  rw [scoreRow]
  rcases hscore : r.score (frames r.signal.timeframe r.signal.instrument) nowNs with _ | o
  · rw [ShadowRow.scored_of_none hscore, or_self] at h
    rw [ShadowRow.scored_of_none hscore]
    exact h
  · rw [ShadowRow.scored_of_some hscore] at h ⊢
    simp only [resolveSignal, Dict.get?_adjust_self]
    rcases h with h | h
    · rw [h]
      rfl
    · rw [h]
      rfl

theorem get?_foldl_scoreRow {rows : List ShadowRow} {r : ShadowRow}
    (hrows : ∀ r' ∈ rows, r'.signal.key = key → r' = r)
    (h : b.rows.get? key = some r ∨ b.rows.get? key = some (r.scored frames nowNs)) :
    (rows.foldl (scoreRow frames nowNs) b).rows.get? key = some r ∨
      (rows.foldl (scoreRow frames nowNs) b).rows.get? key = some (r.scored frames nowNs) := by
  induction rows generalizing b with
  | nil => exact h
  | cons r' rows ih =>
      apply ih fun r'' hr'' => hrows r'' (List.mem_cons_of_mem _ hr'')
      by_cases hkey : r'.signal.key = key
      · obtain rfl := hrows r' List.mem_cons_self hkey
        exact .inr (get?_scoreRow_self hkey h)
      · rw [get?_scoreRow_of_ne hkey]
        exact h

theorem get?_foldl_scoreRow_of_ne {rows : List ShadowRow}
    (hrows : ∀ r ∈ rows, r.signal.key ≠ key) :
    (rows.foldl (scoreRow frames nowNs) b).rows.get? key = b.rows.get? key := by
  induction rows generalizing b with
  | nil => rfl
  | cons r rows ih =>
      rw [List.foldl_cons, ih fun r' hr' => hrows r' (List.mem_cons_of_mem _ hr'),
        get?_scoreRow_of_ne (hrows r List.mem_cons_self)]

theorem get?_resolve {enabled : Bool} {r' : ShadowRow}
    (h : (b.resolve enabled frames nowNs limit).rows.get? key = some r') :
    b.rows.get? key = some r' ∨ enabled = true ∧ ∃ r ∈ b.openSignals limit,
      b.rows.get? key = some r ∧ r' = r.scored frames nowNs := by
  rw [resolve] at h
  split_ifs at h with henabled
  · by_cases hopen : ∃ r ∈ b.openSignals limit, r.signal.key = key
    · obtain ⟨r, hr, hkey⟩ := hopen
      have hget : b.rows.get? key = some r := hkey ▸ (mem_openSignals hr).1
      have hrows : ∀ r' ∈ b.openSignals limit, r'.signal.key = key → r' = r := by
        intro r' hr' hkey'
        have hget' : b.rows.get? key = some r' := hkey' ▸ (mem_openSignals hr').1
        exact Option.some.inj (hget'.symm.trans hget)
      rcases get?_foldl_scoreRow hrows (.inl hget) with hsame | hscored
      · exact .inl (hget.trans (hsame.symm.trans h))
      · exact .inr ⟨henabled, r, hr, hget, Option.some.inj (h.symm.trans hscored)⟩
    · rw [get?_foldl_scoreRow_of_ne (fun r hr hkey => hopen ⟨r, hr, hkey⟩)] at h
      exact .inl h
  · exact .inl h

theorem get?_resolve_of_resolved {enabled : Bool} {r : ShadowRow}
    (hr : b.rows.get? key = some r) (hresolved : r.resolved = true) :
    (b.resolve enabled frames nowNs limit).rows.get? key = some r := by
  rw [resolve]
  split_ifs
  · rw [get?_foldl_scoreRow_of_ne, hr]
    intro r' hr' hkey
    obtain ⟨hget, hopen⟩ := mem_openSignals hr'
    rw [hkey, hr] at hget
    rw [← Option.some.inj hget, hresolved] at hopen
    cases hopen
  · exact hr

theorem get?_recordSignal {s : ShadowSignal} {r : ShadowRow}
    (h : (b.recordSignal s).rows.get? key = some r) :
    b.rows.get? key = some r ∨ r = { signal := s } := by
  rw [recordSignal, Dict.get?_setDefault] at h
  split_ifs at h with hkey
  · rcases hold : b.rows.get? s.key with _ | old
    · rw [hold] at h
      exact .inr (Option.some.inj h).symm
    · rw [hold] at h
      rw [hkey, hold]
      exact .inl h
  · exact .inl h

theorem get?_recordSignal_of_get? {s : ShadowSignal} {r : ShadowRow}
    (h : b.rows.get? key = some r) : (b.recordSignal s).rows.get? key = some r := by
  rw [recordSignal, Dict.get?_setDefault]
  split_ifs with hkey
  · rw [← hkey, h]
    rfl
  · exact h

end ShadowBook

/-! ## Runs -/

abbrev ShadowMarket := String → String → List (ℤ × BarRow)

/-- A signal is recorded, or a call scores the open rows from what the feed
shows at that moment. -/
inductive ShadowMove where
  | record (s : ShadowSignal)
  | resolve (enabled : Bool) (windows : String → String → FeedWindow) (nowNs : ℤ) (limit : ℕ)

namespace ShadowBook

def step (market : ShadowMarket) (b : ShadowBook) : ShadowMove → ShadowBook
  | .record s => b.recordSignal s
  | .resolve enabled windows nowNs limit =>
      b.resolve enabled (fun timeframe instrument =>
        (windows timeframe instrument).frame (market timeframe instrument)) nowNs limit

def SeesPaths (market : ShadowMarket) (b : ShadowBook) : ShadowMove → Prop
  | .record _ => True
  | .resolve enabled windows nowNs limit =>
      enabled = true → ∀ r ∈ b.openSignals limit,
        r.signal.SeesPath (market r.signal.timeframe r.signal.instrument)
          (windows r.signal.timeframe r.signal.instrument) nowNs

instance (market : ShadowMarket) (b : ShadowBook) :
    ∀ m, Decidable (b.SeesPaths market m)
  | .record _ => isTrue trivial
  | .resolve enabled windows nowNs limit =>
      inferInstanceAs (Decidable (enabled = true → ∀ r ∈ b.openSignals limit,
        r.signal.SeesPath (market r.signal.timeframe r.signal.instrument)
          (windows r.signal.timeframe r.signal.instrument) nowNs))

end ShadowBook

def ShadowRow.Settled (market : ShadowMarket) (r : ShadowRow) : Prop :=
  (r.resolved = false → r.outcomeR = none) ∧
  (r.resolved = true → ∃ exit, r.exit = some exit ∧
    (true, r.outcomeR, exit) = (r.signal.resolvePath
      (r.signal.after (market r.signal.timeframe r.signal.instrument))).outcome)

theorem ShadowRow.settled_store {market : ShadowMarket} {r : ShadowRow} {o : PathResult}
    (hopen : o.resolved = false → o.outcomeR = none)
    (hdone : o.resolved = true → o.outcome = (r.signal.resolvePath
      (r.signal.after (market r.signal.timeframe r.signal.instrument))).outcome) :
    (r.store o).Settled market := by
  refine ⟨hopen, fun h => ⟨o.exit, rfl, ?_⟩⟩
  rw [show (r.store o).signal = r.signal from rfl, ← hdone h, PathResult.outcome]
  congr 1
  exact h.symm

namespace ShadowBook

def Settled (market : ShadowMarket) (b : ShadowBook) : Prop :=
  ∀ key r, b.rows.get? key = some r → r.Settled market

variable {market : ShadowMarket} {b : ShadowBook}

theorem Settled.step {m : ShadowMove}
    (hb : b.Settled market) (hm : b.SeesPaths market m) : (b.step market m).Settled market := by
  intro key r hr
  rcases m with s | ⟨enabled, windows, nowNs, limit⟩
  · rcases get?_recordSignal hr with hold | rfl
    · exact hb key r hold
    · exact ⟨fun _ => rfl, fun h => by cases h⟩
  · rcases get?_resolve hr with hold | ⟨henabled, old, hmem, hold, rfl⟩
    · exact hb key r hold
    · have hsees := hm henabled old hmem
      rcases hscore : old.score ((windows old.signal.timeframe old.signal.instrument).frame
          (market old.signal.timeframe old.signal.instrument)) nowNs with _ | o
      · rw [ShadowRow.scored_of_none hscore]
        exact hb key old hold
      · rw [ShadowRow.scored_of_some hscore]
        exact ShadowRow.settled_store (ShadowRow.outcomeR_score hscore)
          (ShadowRow.outcome_score hsees hscore)

theorem get?_run {key : String} {r : ShadowRow}
    (hr : b.rows.get? key = some r) (hresolved : r.resolved = true) (ms : List ShadowMove) :
    (ms.foldl (step market) b).rows.get? key = some r := by
  induction ms generalizing b with
  | nil => exact hr
  | cons m ms ih =>
      apply ih
      rcases m with s | ⟨enabled, windows, nowNs, limit⟩
      · exact get?_recordSignal_of_get? hr
      · exact get?_resolve_of_resolved hr hresolved

/-- In any run a resolved row stays as it is.  Where every call sees the path of
the rows it scores, a row that is still open holds no outcome and a resolved one
holds that of `resolve_path` on the whole series after the signal. -/
theorem settled_run (market : ShadowMarket) (ms : List ShadowMove) :
    (∀ ms' key r, (ms.foldl (step market) empty).rows.get? key = some r → r.resolved = true →
      ((ms ++ ms').foldl (step market) empty).rows.get? key = some r) ∧
    (Along (step market) (SeesPaths market) empty ms →
      (ms.foldl (step market) empty).Settled market) := by
  constructor
  · intro ms' key r hr hresolved
    rw [List.foldl_append]
    exact get?_run hr hresolved ms'
  · intro hms
    have hempty : empty.Settled market := by
      intro key r hr
      cases hr
    exact Along.invariant (fun b m hb hm => hb.step hm) hempty hms

/-! ## Windows that lose bars, and a clock that does not wait -/

def hourBar (hour : ℤ) (openPrice high low close : Dec) : ℤ × BarRow :=
  (hour * 3600000000000,
    { endNs := (hour + 1) * 3600000000000, openPrice, high, low, close, volume := 1,
      complete := true, source := "", receivedNs := 0 })

def longSignal : ShadowSignal :=
  { strategy := "trend", instrument := "EUR_USD", side := .buy, tsNs := 0, timeframe := "H1",
    entry := 10, stop := 9, target := some 12, horizon := 5, costR := 0,
    horizon_pos := by decide }

def calledOnce (w : FeedWindow) (nowNs : ℤ) : List ShadowMove :=
  [.record longSignal, .resolve true (fun _ _ => w) nowNs 300]

def quietThenTarget : ShadowMarket := fun _ _ => [hourBar 1 10 11 10 11, hourBar 2 11 13 11 12]

def stopThenTarget : ShadowMarket := fun _ _ => [hourBar 1 10 11 8 10, hourBar 2 11 13 11 12]

def acrossWeekend : ShadowMarket := fun _ _ => [hourBar 1 10 11 10 11, hourBar 50 11 13 11 12]

/-- A call that has lost the quiet first hour sees the target touched as the
whole series does. -/
theorem settled_run_target :
    Along (step quietThenTarget) (SeesPaths quietThenTarget) empty
        (calledOnce ⟨1, 1⟩ 7200000000000) ∧
      ((calledOnce ⟨1, 1⟩ 7200000000000).foldl (step quietThenTarget) empty).Settled
        quietThenTarget ∧
      (((calledOnce ⟨1, 1⟩ 7200000000000).foldl (step quietThenTarget) empty).rows.get?
        longSignal.key).map (fun r => (r.resolved, r.outcomeR, r.exit)) =
          some (true, some 2, some .target) := by
  have hsees : Along (step quietThenTarget) (SeesPaths quietThenTarget) empty
      (calledOnce ⟨1, 1⟩ 7200000000000) := by decide +kernel
  exact ⟨hsees, (settled_run _ _).2 hsees, by decide +kernel⟩

theorem not_settled (key : String)
    (outcomeR : Option Dec) (exit : ExitKind) (whole : Bool × Option Dec × ExitKind)
    (hrow : (b.rows.get? key).map (fun r => (r.resolved, r.outcomeR, r.exit)) =
      some (true, outcomeR, some exit))
    (hwhole : (b.rows.get? key).map (fun r => (r.signal.resolvePath
      (r.signal.after (market r.signal.timeframe r.signal.instrument))).outcome) = some whole)
    (hne : (true, outcomeR, exit) ≠ whole) : ¬ b.Settled market := by
  intro hsettled
  obtain ⟨r, hr, hstored⟩ := Option.map_eq_some_iff.mp hrow
  simp only [Prod.mk.injEq] at hstored
  obtain ⟨hresolved, rfl, hexit⟩ := hstored
  rw [hr, Option.map_some, Option.some.injEq] at hwhole
  obtain ⟨exit', hexit', hsame⟩ := (hsettled key r hr).2 hresolved
  rw [hexit, Option.some.injEq] at hexit'
  rw [hwhole, ← hexit'] at hsame
  exact hne hsame

/-- The first hour touches the stop: a call that has lost it stores the target.
And one that comes over a weekend expires a path with bars still to come. -/
theorem outcome_depends_on_calls :
    ¬ ((calledOnce ⟨1, 1⟩ 7200000000000).foldl (step stopThenTarget) empty).Settled
      stopThenTarget ∧
    ¬ ((calledOnce ⟨0, 1⟩ 176400000000000).foldl (step acrossWeekend) empty).Settled
      acrossWeekend := by
  constructor
  · exact not_settled longSignal.key (some 2) .target (true, some (-1), .stop)
      (by decide +kernel) (by decide +kernel) (by decide)
  · exact not_settled longSignal.key (some 1) .expired (true, some 2, .target)
      (by decide +kernel) (by decide +kernel) (by decide)

end ShadowBook

end Sentinel
