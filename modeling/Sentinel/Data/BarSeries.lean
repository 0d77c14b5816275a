import Mathlib.Data.Set.Card
import Sentinel.Data.BarFeed
import Sentinel.Support.NoHole

/-!
# What a stored series holds

Against a venue that shows the bars of a timeframe, all of them complete but the
newest, and answers with the most recent ones: a refresh that asks and gets a
strictly increasing answer leaves every bar stored that the venue completed
since the first, and at no time has the series a hole.
-/

namespace Sentinel

/-! ## The store -/

namespace BarStore

variable (s : BarStore) (receivedNs : ℤ)

def stored (s : BarStore) (instrument timeframe : String) : Set ℤ :=
  {a | ∃ r, s.rows.get? ⟨instrument, timeframe, a⟩ = some r ∧ r.complete = true}

theorem get?_put_of_ne (s : BarStore) (b : Bar) {k : BarKey} (h : k ≠ b.key) :
    (put receivedNs s b).rows.get? k = s.rows.get? k := by
  rw [put]
  split
  · exact Dict.get?_set_of_ne _ h _
  · split_ifs
    · rfl
    · exact Dict.get?_set_of_ne _ h _

theorem get?_put_self (s : BarStore) {b : Bar} (h : b.complete = true) :
    ∃ source, (put receivedNs s b).rows.get? b.key = some { b.row receivedNs with source } := by
  rw [put]
  split
  · exact ⟨b.source, Dict.get?_set_self _ _ _⟩
  · rename_i old hold
    rw [if_neg (by simp [h])]
    exact ⟨old.source, Dict.get?_set_self _ _ _⟩

theorem complete_put (s : BarStore) (b : Bar) {k : BarKey} {r : BarRow}
    (hr : s.rows.get? k = some r) (hcomplete : r.complete = true) :
    ∃ r', (put receivedNs s b).rows.get? k = some r' ∧ r'.complete = true := by
  by_cases hk : k = b.key
  · subst hk
    rw [put, hr]
    by_cases hb : b.complete = true
    · simp only [hb, Bool.not_true, Bool.and_false, Bool.false_eq_true, if_false]
      exact ⟨_, Dict.get?_set_self _ _ _, hb⟩
    · simp only [hcomplete, Bool.not_eq_true] at hb ⊢
      rw [if_pos (by simp [hb])]
      exact ⟨r, hr, hcomplete⟩
  · rw [get?_put_of_ne receivedNs s b hk]
    exact ⟨r, hr, hcomplete⟩

theorem upsert_append (bars : List Bar) (b : Bar) :
    s.upsert receivedNs (bars ++ [b]) = put receivedNs (s.upsert receivedNs bars) b := by
  rw [upsert, List.foldl_append]
  rfl

theorem complete_upsert (bars : List Bar) {k : BarKey}
    {r : BarRow} (hr : s.rows.get? k = some r) (hcomplete : r.complete = true) :
    ∃ r', (s.upsert receivedNs bars).rows.get? k = some r' ∧ r'.complete = true := by
  induction bars using List.reverseRecOn with
  | nil => exact ⟨r, hr, hcomplete⟩
  | append_singleton bars b ih =>
      obtain ⟨r', hr', hcomplete'⟩ := ih
      rw [upsert_append]
      exact complete_put receivedNs _ b hr' hcomplete'

theorem get?_upsert {bars : List Bar}
    (hbars : ∀ b ∈ bars, b.complete = true) (k : BarKey) :
    (k ∉ bars.map Bar.key ∧ (s.upsert receivedNs bars).rows.get? k = s.rows.get? k) ∨
      ∃ b ∈ bars, b.key = k ∧ ∃ source,
        (s.upsert receivedNs bars).rows.get? k = some { b.row receivedNs with source } := by
  induction bars using List.reverseRecOn with
  | nil => exact .inl ⟨by simp, rfl⟩
  | append_singleton bars b ih =>
      have hb : b.complete = true := hbars b (by simp)
      rw [upsert_append]
      by_cases hk : k = b.key
      · subst hk
        obtain ⟨source, hsource⟩ := get?_put_self receivedNs (s.upsert receivedNs bars) hb
        exact .inr ⟨b, by simp, rfl, source, hsource⟩
      · rw [get?_put_of_ne receivedNs _ b hk]
        rcases ih fun b' hb' => hbars b' (by simp [hb']) with ⟨hout, hsame⟩ | ⟨b', hb', hkey, hrow⟩
        · refine .inl ⟨?_, hsame⟩
          rw [List.map_append, List.mem_append, not_or]
          exact ⟨hout, by simpa using hk⟩
        · exact .inr ⟨b', by simp [hb'], hkey, hrow⟩

theorem mem_stored_upsert {bars : List Bar}
    (hbars : ∀ b ∈ bars, b.complete = true) (instrument timeframe : String) (a : ℤ) :
    a ∈ (s.upsert receivedNs bars).stored instrument timeframe ↔
      a ∈ s.stored instrument timeframe ∨ ⟨instrument, timeframe, a⟩ ∈ bars.map Bar.key := by
  rcases s.get?_upsert receivedNs hbars ⟨instrument, timeframe, a⟩ with
    ⟨hout, hsame⟩ | ⟨b, hb, hkey, source, hrow⟩
  · rw [stored, Set.mem_ofPred_eq, hsame]
    constructor
    · exact .inl
    · rintro (hold | hin)
      · exact hold
      · exact absurd hin hout
  · constructor
    · intro _
      exact .inr (List.mem_map.2 ⟨b, hb, hkey⟩)
    · intro _
      exact ⟨_, hrow, hbars b hb⟩

/-! ### Reading -/

variable {s : BarStore} {instrument timeframe : String}

theorem mem_series {a : ℤ} {r : BarRow} :
    (a, r) ∈ s.series instrument timeframe ↔
      s.rows.get? ⟨instrument, timeframe, a⟩ = some r ∧ r.complete = true := by
  rw [series, List.mem_filterMap]
  constructor
  · rintro ⟨⟨⟨i, t, c⟩, r'⟩, hmem, hsome⟩
    split_ifs at hsome with h
    obtain ⟨rfl, rfl⟩ := Prod.mk.inj (Option.some.inj hsome)
    obtain ⟨rfl, rfl, hcomplete⟩ := h
    exact ⟨(Dict.mem_items_iff _ _ _).1 hmem, hcomplete⟩
  · rintro ⟨hget, hcomplete⟩
    exact ⟨_, (Dict.mem_items_iff _ _ _).2 hget, by simp [hcomplete]⟩

theorem mem_starts {a : ℤ} :
    a ∈ (s.series instrument timeframe).map Prod.fst ↔ a ∈ s.stored instrument timeframe := by
  rw [List.mem_map]
  constructor
  · rintro ⟨⟨c, r⟩, hmem, rfl⟩
    exact ⟨r, mem_series.1 hmem⟩
  · rintro ⟨r, hr⟩
    exact ⟨(a, r), mem_series.2 hr, rfl⟩

theorem latestStartNs_eq_none
    (h : s.latestStartNs instrument timeframe = none) : s.stored instrument timeframe = ∅ := by
  rw [latestStartNs, List.max?_eq_none_iff] at h
  ext a
  rw [← mem_starts, h]
  simp

theorem latestStartNs_eq_some {last : ℤ}
    (h : s.latestStartNs instrument timeframe = some last) :
    last ∈ s.stored instrument timeframe ∧ ∀ a ∈ s.stored instrument timeframe, a ≤ last := by
  rw [latestStartNs, List.max?_eq_some_iff] at h
  refine ⟨mem_starts.1 h.1, ?_⟩
  intro a ha
  exact h.2 a (mem_starts.2 ha)

theorem pairwise_series (s : BarStore) (instrument timeframe : String) :
    (s.series instrument timeframe).Pairwise fun x y => x.1 ≠ y.1 := by
  have hkeys : s.rows.items.Pairwise fun kv kv' => kv.1 ≠ kv'.1 :=
    List.pairwise_map.1 s.rows.nodup
  rw [series, List.pairwise_filterMap]
  refine hkeys.imp ?_
  rintro ⟨⟨i, t, a⟩, r⟩ ⟨⟨i', t', a'⟩, r'⟩ hne x hx y hy hxy
  split_ifs at hx hy with h h'
  obtain rfl := Option.some.inj hx
  obtain rfl := Option.some.inj hy
  obtain ⟨rfl, rfl, -⟩ := h
  obtain ⟨rfl, rfl, -⟩ := h'
  exact hne (congrArg (BarKey.mk _ _) hxy)

theorem pairwise_frame (s : BarStore) (instrument timeframe : String) (limit : ℕ) :
    ((s.frame instrument timeframe limit).map Prod.fst).Pairwise (· < ·) := by
  have hsorted : ((s.series instrument timeframe).mergeSort
      fun a b => decide (b.1 ≤ a.1)).Pairwise fun a b => decide (b.1 ≤ a.1) = true := by
    apply List.pairwise_mergeSort
    · simpa using fun a _ b _ c _ hab hbc => hbc.trans hab
    · simpa using fun a _ b _ => le_total b a
  have hdistinct : ((s.series instrument timeframe).mergeSort
      fun a b => decide (b.1 ≤ a.1)).Pairwise fun x y => x.1 ≠ y.1 := by
    refine ((List.mergeSort_perm _ _).pairwise_iff ?_).2 (s.pairwise_series instrument timeframe)
    exact fun h => h.symm
  have hdescending := hsorted.and hdistinct
  rw [frame, List.map_reverse, List.pairwise_reverse, List.pairwise_map]
  refine (hdescending.sublist (List.take_sublist _ _)).imp ?_
  rintro x y ⟨hle, hne⟩
  exact lt_of_le_of_ne (of_decide_eq_true hle) hne.symm

end BarStore

/-! ## The venue -/

structure Venue (instrument timeframe : String) where
  starts : Set ℤ
  endOf : ℤ → ℤ
  /-- the bar of a start, as it is shown at a time -/
  bar : ℤ → ℤ → Bar
  key_bar : ∀ nowNs c, (bar nowNs c).key = ⟨instrument, timeframe, c⟩
  endNs_bar : ∀ nowNs c, (bar nowNs c).endNs = endOf c
  endOf_mono : ∀ c ∈ starts, ∀ c' ∈ starts, c < c' → endOf c ≤ endOf c'
  /-- only the newest bar may be unfinished -/
  finished : ∀ nowNs, ∀ c ∈ starts, ∀ c' ∈ starts, c < c' → c' < nowNs →
    (bar nowNs c).complete = true
  /-- a bar an interval; a day of twenty-three hours makes one more -/
  finite_later : ∀ c ∈ starts, ∀ nowNs, {c' ∈ starts | c < c' ∧ c' ≤ nowNs}.Finite
  few_later : ∀ c ∈ starts, ∀ nowNs, {c' ∈ starts | c < c' ∧ c' ≤ nowNs}.ncard ≤
    max 0 (nowNs - c) / intervalNs timeframe + 2

namespace Venue

variable {instrument timeframe : String} (v : Venue instrument timeframe)

/-- The bars that have started since `c`. -/
def later (nowNs c : ℤ) : Set ℤ := {c' ∈ v.starts | c < c' ∧ c' ≤ nowNs}

structure Completed (nowNs c : ℤ) : Prop where
  start : c ∈ v.starts
  complete : (v.bar nowNs c).complete = true
  ended : v.endOf c ≤ nowNs

/-- The most recent `count` bars, in any order and with any repeats; whether the
one that starts at the end of the request is among them is left open. -/
structure Answers (nowNs : ℤ) (count : ℕ) (bars : List Bar) : Prop where
  shown : ∀ b ∈ bars, ∃ c ∈ v.starts, c ≤ nowNs ∧ b = v.bar nowNs c
  recent : ∀ c ∈ v.starts, c < nowNs → (v.later nowNs c).ncard < count → v.bar nowNs c ∈ bars
  solid : ∀ c ∈ v.starts, ∀ c' ∈ v.starts, c < c' → c' < nowNs → v.bar nowNs c ∈ bars →
    v.bar nowNs c' ∈ bars

theorem lt_endOf (c : ℤ) : c < v.endOf c := by
  have hbar := (v.bar 0 c).start_lt_end
  have hstart : (v.bar 0 c).startNs = c := congrArg BarKey.startNs (v.key_bar 0 c)
  rwa [hstart, v.endNs_bar] at hbar

theorem completed_of_lt {nowNs c c' : ℤ} (hc : c ∈ v.starts) (hc' : c' ∈ v.starts) (hlt : c < c')
    (hended : v.endOf c' ≤ nowNs) : v.Completed nowNs c where
  start := hc
  complete := v.finished nowNs c hc c' hc' hlt ((v.lt_endOf c').trans_le hended)
  ended := (v.endOf_mono c hc c' hc' hlt).trans hended

theorem ncard_later_lt {nowNs c c' : ℤ} (hc : c ∈ v.starts) (hc' : c' ∈ v.starts) (hlt : c < c')
    (hnow : c' ≤ nowNs) : (v.later nowNs c').ncard < (v.later nowNs c).ncard := by
  apply Set.ncard_lt_ncard
  · refine ⟨?_, ?_⟩
    · rintro x ⟨hx, hlater, hle⟩
      exact ⟨hx, hlt.trans hlater, hle⟩
    · intro hsub
      have hself : c' ∈ v.later nowNs c' := hsub ⟨hc', hlt, hnow⟩
      exact lt_irrefl _ hself.2.1
  · exact v.finite_later c hc nowNs

end Venue

def MarketFeed.freshStarts (bars : List Bar) (nowNs : ℤ) (instrument timeframe : String) : Set ℤ :=
  {c | ⟨instrument, timeframe, c⟩ ∈ (MarketFeed.fresh bars nowNs).map Bar.key}

namespace Venue

variable {instrument timeframe : String} (v : Venue instrument timeframe)

theorem mem_freshStarts {nowNs c : ℤ} {count : ℕ} {bars : List Bar}
    (h : v.Answers nowNs count bars) : c ∈ MarketFeed.freshStarts bars nowNs instrument timeframe ↔
      v.Completed nowNs c ∧ v.bar nowNs c ∈ bars := by
  rw [MarketFeed.freshStarts, Set.mem_ofPred_eq, List.mem_map]
  constructor
  · rintro ⟨b, hb, hkey⟩
    obtain ⟨hmem, hfresh⟩ := List.mem_filter.1 hb
    rw [Bool.and_eq_true, decide_eq_true_iff] at hfresh
    obtain ⟨c', hc', -, rfl⟩ := h.shown b hmem
    obtain rfl : c' = c := congrArg BarKey.startNs ((v.key_bar nowNs c').symm.trans hkey)
    rw [v.endNs_bar] at hfresh
    exact ⟨⟨hc', hfresh.1, hfresh.2⟩, hmem⟩
  · rintro ⟨hcompleted, hmem⟩
    refine ⟨v.bar nowNs c, List.mem_filter.2 ⟨hmem, ?_⟩, v.key_bar nowNs c⟩
    rw [Bool.and_eq_true, decide_eq_true_iff, v.endNs_bar]
    exact ⟨hcompleted.complete, hcompleted.ended⟩

theorem mem_freshStarts_of_le {nowNs a c : ℤ} {count : ℕ} {bars : List Bar}
    (h : v.Answers nowNs count bars)
    (ha : a ∈ MarketFeed.freshStarts bars nowNs instrument timeframe) (hac : a ≤ c)
    (hc : v.Completed nowNs c) : c ∈ MarketFeed.freshStarts bars nowNs instrument timeframe := by
  rcases hac.eq_or_lt with rfl | hlt
  · exact ha
  · obtain ⟨hcompleted, hmem⟩ := (v.mem_freshStarts h).1 ha
    refine (v.mem_freshStarts h).2 ⟨hc, ?_⟩
    exact h.solid a hcompleted.start c hc.start hlt ((v.lt_endOf c).trans_le hc.ended) hmem

end Venue

/-! ## Refreshes -/

/-- A series is refreshed, with the venue's answer if it is asked, or the process
starts again. -/
inductive FeedMove where
  | ingest (instrument timeframe : String) (nowNs : ℤ) (answer : Option (List Bar))
  | restart

namespace MarketFeed

def step (s : MarketFeed) : FeedMove → MarketFeed
  | .ingest instrument timeframe nowNs answer => (s.ingest instrument timeframe nowNs answer).1
  | .restart => s.restart

def Accepts (bars : List Bar) (nowNs : ℤ) : Prop :=
  fresh bars nowNs = [] ∨ ValidFrame (fresh bars nowNs)

variable (venues : ∀ instrument timeframe, Venue instrument timeframe)

/-- What a venue that is asked does, at a clock that is not behind the stored
bars: it fails, or has no bars, or answers; and no more bars have started since
the newest stored one than the history holds. -/
def AsPromised (s : MarketFeed) : FeedMove → Prop
  | .ingest instrument timeframe nowNs answer =>
      ∀ count, s.asks instrument timeframe nowNs = some count →
        (∀ k r, s.store.rows.get? k = some r → r.receivedNs ≤ nowNs) ∧
        (∀ last, s.store.latestStartNs instrument timeframe = some last →
          ((venues instrument timeframe).later nowNs last).ncard ≤ s.history) ∧
        ∀ bars, answer = some bars →
          bars = [] ∨ (venues instrument timeframe).Answers nowNs count bars
  | .restart => True

/-- What a refresh leaves behind: series in strictly increasing time and without
a hole, every complete bar complete, none that ended after it was ingested; and
when the venue was asked and its answer accepted, every bar it completed since
the first stored one. -/
structure Kept (s : MarketFeed) (m : FeedMove) : Prop where
  increasing : ∀ instrument timeframe limit,
    (((s.step m).store.frame instrument timeframe limit).map Prod.fst).Pairwise (· < ·)
  complete : ∀ k r, s.store.rows.get? k = some r → r.complete = true →
    ∃ r', (s.step m).store.rows.get? k = some r' ∧ r'.complete = true
  ended : ∀ k r, (s.step m).store.rows.get? k = some r → r.complete = true →
    r.endNs ≤ r.receivedNs
  solid : ∀ instrument timeframe,
    NoHole (venues instrument timeframe).starts ((s.step m).store.stored instrument timeframe)
  whole : ∀ instrument timeframe nowNs bars,
    m = .ingest instrument timeframe nowNs (some bars) →
    (s.asks instrument timeframe nowNs).isSome = true → bars ≠ [] → Accepts bars nowNs →
    ∀ a ∈ (s.step m).store.stored instrument timeframe,
    ∀ c, a ≤ c → (venues instrument timeframe).Completed nowNs c →
      c ∈ (s.step m).store.stored instrument timeframe

/-- What holds of the store between refreshes. -/
structure Sound (s : MarketFeed) : Prop where
  onVenue : ∀ instrument timeframe, ∀ a ∈ s.store.stored instrument timeframe,
    a ∈ (venues instrument timeframe).starts
  solid : ∀ instrument timeframe,
    NoHole (venues instrument timeframe).starts (s.store.stored instrument timeframe)
  rows : ∀ k r, s.store.rows.get? k = some r → r.complete = true ∧
    r.endNs = (venues k.instrument k.timeframe).endOf k.startNs ∧ r.endNs ≤ r.receivedNs

variable {venues}

theorem ingest_cases (s : MarketFeed) (instrument timeframe : String) (nowNs : ℤ)
    (answer : Option (List Bar)) :
    ((s.ingest instrument timeframe nowNs answer).1.store = s.store ∧
      ∀ bars, answer = some bars → (s.asks instrument timeframe nowNs).isSome = true →
        Accepts bars nowNs → fresh bars nowNs = []) ∨
    ∃ count bars, s.asks instrument timeframe nowNs = some count ∧ answer = some bars ∧
      fresh bars nowNs ≠ [] ∧
      (s.ingest instrument timeframe nowNs answer).1.store =
        s.store.upsert nowNs (fresh bars nowNs) := by
  rw [ingest]
  split
  · rename_i hnone
    refine .inl ⟨rfl, ?_⟩
    intro bars _ hasked
    rw [hnone] at hasked
    cases hasked
  · rename_i count hcount
    split
    · refine .inl ⟨rfl, ?_⟩
      intro bars hbars
      cases hbars
    · rename_i bars
      split_ifs with hempty hvalid
      · refine .inl ⟨rfl, ?_⟩
        rintro bars' hbars' - -
        obtain rfl := Option.some.inj hbars'
        exact hempty
      · exact .inr ⟨count, bars, hcount, rfl, hempty, rfl⟩
      · refine .inl ⟨rfl, ?_⟩
        rintro bars' hbars' - haccepts
        obtain rfl := Option.some.inj hbars'
        exact haccepts.resolve_right hvalid

theorem fresh_complete {bars : List Bar} {nowNs : ℤ} : ∀ b ∈ fresh bars nowNs,
    b.complete = true := by
  intro b hb
  exact (Bool.and_eq_true _ _ ▸ (List.mem_filter.1 hb).2).1

theorem stored_upsert_fresh (store : BarStore) (bars : List Bar) (nowNs : ℤ)
    (instrument timeframe : String) :
    (store.upsert nowNs (fresh bars nowNs)).stored instrument timeframe =
      store.stored instrument timeframe ∪ freshStarts bars nowNs instrument timeframe := by
  ext a
  rw [store.mem_stored_upsert nowNs fresh_complete]
  rfl

variable {s : MarketFeed}

theorem mem_bars_of_latest_lt {instrument timeframe : String} {nowNs : ℤ}
    {count : ℕ} {last : ℤ} (hcount : s.asks instrument timeframe nowNs = some count)
    (hlast : s.store.latestStartNs instrument timeframe = some last)
    {v : Venue instrument timeframe} (hon : last ∈ v.starts)
    (hgap : (v.later nowNs last).ncard ≤ s.history) {bars : List Bar}
    (hanswer : v.Answers nowNs count bars) {c : ℤ} (hlt : last < c)
    (hc : v.Completed nowNs c) : v.bar nowNs c ∈ bars := by
  have hnow : c < nowNs := (v.lt_endOf c).trans_le hc.ended
  have hfewer := v.ncard_later_lt hon hc.start hlt hnow.le
  have hfew := v.few_later last hon nowNs
  apply hanswer.recent c hc.start hnow
  simp only [asks, hlast] at hcount
  split_ifs at hcount with hsoon hgapShort
  obtain rfl := Option.some.inj hcount
  refine lt_min (hfewer.trans_le hgap) ?_
  change ((v.later nowNs last).ncard : ℤ) ≤ _ at hfew
  omega

theorem freshStarts_of_ne {instrument timeframe instrument' timeframe' : String} {nowNs : ℤ}
    {count : ℕ} {bars : List Bar} {v : Venue instrument timeframe}
    (h : v.Answers nowNs count bars) (hne : ¬(instrument' = instrument ∧ timeframe' = timeframe)) :
    freshStarts bars nowNs instrument' timeframe' = ∅ := by
  ext a
  rw [freshStarts, Set.mem_ofPred_eq, List.mem_map]
  constructor
  · rintro ⟨b, hb, hkey⟩
    obtain ⟨c, -, -, rfl⟩ := h.shown b (List.mem_filter.1 hb).1
    rw [v.key_bar] at hkey
    have hi : instrument = instrument' := congrArg BarKey.instrument hkey
    have ht : timeframe = timeframe' := congrArg BarKey.timeframe hkey
    exact absurd ⟨hi.symm, ht.symm⟩ hne
  · intro ha
    exact absurd ha (Set.notMem_empty a)

theorem Sound.endOf_le (h : Sound venues s) {instrument timeframe : String}
    {nowNs a : ℤ} (hclock : ∀ k r, s.store.rows.get? k = some r → r.receivedNs ≤ nowNs)
    (ha : a ∈ s.store.stored instrument timeframe) :
    (venues instrument timeframe).endOf a ≤ nowNs := by
  obtain ⟨r, hr, -⟩ := ha
  obtain ⟨-, hend, hle⟩ := h.rows _ r hr
  rw [← hend]
  exact hle.trans (hclock _ r hr)

theorem Sound.mem_freshStarts (h : Sound venues s)
    {instrument timeframe : String} {nowNs : ℤ} {count : ℕ} {bars : List Bar}
    (hcount : s.asks instrument timeframe nowNs = some count)
    (hgap : ∀ last, s.store.latestStartNs instrument timeframe = some last →
      ((venues instrument timeframe).later nowNs last).ncard ≤ s.history)
    (hanswer : (venues instrument timeframe).Answers nowNs count bars) {a c : ℤ}
    (ha : a ∈ s.store.stored instrument timeframe)
    (habove : ∀ b ∈ s.store.stored instrument timeframe, b < c)
    (hc : (venues instrument timeframe).Completed nowNs c) :
    c ∈ freshStarts bars nowNs instrument timeframe := by
  refine ((venues instrument timeframe).mem_freshStarts hanswer).2 ⟨hc, ?_⟩
  cases hlast : s.store.latestStartNs instrument timeframe with
  | none =>
      rw [BarStore.latestStartNs_eq_none hlast] at ha
      exact absurd ha (Set.notMem_empty a)
  | some last =>
      have hstored := (BarStore.latestStartNs_eq_some hlast).1
      exact mem_bars_of_latest_lt hcount hlast (h.onVenue _ _ last hstored) (hgap last hlast)
        hanswer (habove last hstored) hc

theorem Sound.noHole_union (h : Sound venues s)
    {instrument timeframe : String} {nowNs : ℤ} {count : ℕ} {bars : List Bar}
    (hcount : s.asks instrument timeframe nowNs = some count)
    (hclock : ∀ k r, s.store.rows.get? k = some r → r.receivedNs ≤ nowNs)
    (hgap : ∀ last, s.store.latestStartNs instrument timeframe = some last →
      ((venues instrument timeframe).later nowNs last).ncard ≤ s.history)
    (hanswer : (venues instrument timeframe).Answers nowNs count bars) :
    NoHole (venues instrument timeframe).starts
      (s.store.stored instrument timeframe ∪ freshStarts bars nowNs instrument timeframe) := by
  have hfresh := fun c => (venues instrument timeframe).mem_freshStarts (c := c) hanswer
  apply (h.solid instrument timeframe).union
  · intro a ha b hb c hc hac hcb
    obtain ⟨hcompleted, -⟩ := (hfresh b).1 hb
    exact (venues instrument timeframe).mem_freshStarts_of_le hanswer ha hac.le
      ((venues instrument timeframe).completed_of_lt hc hcompleted.start hcb hcompleted.ended)
  · rintro ⟨a, ha⟩ c hc habove w hw hcw
    obtain ⟨hcompleted, -⟩ := (hfresh w).1 hw
    exact h.mem_freshStarts hcount hgap hanswer ha habove
      ((venues instrument timeframe).completed_of_lt hc hcompleted.start hcw hcompleted.ended)
  · intro w hw b hb c hc hwc hcb
    exact (venues instrument timeframe).mem_freshStarts_of_le hanswer hw hwc.le
      ((venues instrument timeframe).completed_of_lt hc (h.onVenue _ _ b hb) hcb
        (h.endOf_le hclock hb))

theorem Sound.step (h : Sound venues s) {m : FeedMove}
    (hm : AsPromised venues s m) : Sound venues (s.step m) := by
  cases m with
  | restart => exact ⟨h.onVenue, h.solid, h.rows⟩
  | ingest instrument timeframe nowNs answer =>
      rcases s.ingest_cases instrument timeframe nowNs answer with
        ⟨hsame, -⟩ | ⟨count, bars, hcount, rfl, hfresh, hstore⟩
      · constructor <;> simp only [MarketFeed.step, hsame]
        · exact h.onVenue
        · exact h.solid
        · exact h.rows
      · obtain ⟨hclock, hgap, hbars⟩ := hm count hcount
        have hanswer : (venues instrument timeframe).Answers nowNs count bars := by
          rcases hbars bars rfl with rfl | hanswer
          · exact absurd rfl hfresh
          · exact hanswer
        constructor <;> simp only [MarketFeed.step, hstore]
        · intro i t a ha
          rw [stored_upsert_fresh] at ha
          rcases ha with hold | hnew
          · exact h.onVenue i t a hold
          · by_cases hkey : i = instrument ∧ t = timeframe
            · obtain ⟨rfl, rfl⟩ := hkey
              exact (((venues i t).mem_freshStarts hanswer).1 hnew).1.start
            · rw [freshStarts_of_ne hanswer hkey] at hnew
              exact absurd hnew (Set.notMem_empty a)
        · intro i t
          rw [stored_upsert_fresh]
          by_cases hkey : i = instrument ∧ t = timeframe
          · obtain ⟨rfl, rfl⟩ := hkey
            exact h.noHole_union hcount hclock hgap hanswer
          · rw [freshStarts_of_ne hanswer hkey, Set.union_empty]
            exact h.solid i t
        · intro k r hr
          rcases s.store.get?_upsert nowNs fresh_complete k with
            ⟨-, hsame⟩ | ⟨b, hb, hkey, source, hrow⟩
          · rw [hsame] at hr
            exact h.rows k r hr
          · obtain rfl := Option.some.inj (hr.symm.trans hrow)
            obtain ⟨hmem, hclosed⟩ := List.mem_filter.1 hb
            rw [Bool.and_eq_true, decide_eq_true_iff] at hclosed
            obtain ⟨c, -, -, rfl⟩ := hanswer.shown b hmem
            rw [(venues instrument timeframe).key_bar] at hkey
            subst hkey
            exact ⟨hclosed.1, (venues instrument timeframe).endNs_bar nowNs c, hclosed.2⟩

theorem stored_of_accepts {instrument timeframe : String} {nowNs : ℤ}
    {bars : List Bar} (hasked : (s.asks instrument timeframe nowNs).isSome = true)
    (haccepts : Accepts bars nowNs) :
    (s.ingest instrument timeframe nowNs (some bars)).1.store.stored instrument timeframe =
      s.store.stored instrument timeframe ∪ freshStarts bars nowNs instrument timeframe := by
  rcases s.ingest_cases instrument timeframe nowNs (some bars) with
    ⟨hsame, hempty⟩ | ⟨count, bars', -, hbars', -, hstore⟩
  · have hnone := hempty bars rfl hasked haccepts
    have hstarts : freshStarts bars nowNs instrument timeframe = ∅ := by
      ext a
      simp [freshStarts, hnone]
    rw [hsame, hstarts, Set.union_empty]
  · obtain rfl := Option.some.inj hbars'
    rw [hstore, stored_upsert_fresh]

theorem Sound.kept (h : Sound venues s) {m : FeedMove}
    (hm : AsPromised venues s m) : Kept venues s m := by
  have hstep := h.step hm
  constructor
  · intro instrument timeframe limit
    exact (s.step m).store.pairwise_frame instrument timeframe limit
  · intro k r hr hcomplete
    cases m with
    | restart => exact ⟨r, hr, hcomplete⟩
    | ingest instrument timeframe nowNs answer =>
        rcases s.ingest_cases instrument timeframe nowNs answer with
          ⟨hsame, -⟩ | ⟨count, bars, -, -, -, hstore⟩
        · rw [MarketFeed.step, hsame]
          exact ⟨r, hr, hcomplete⟩
        · rw [MarketFeed.step, hstore]
          exact s.store.complete_upsert nowNs _ hr hcomplete
  · intro k r hr _
    exact (hstep.rows k r hr).2.2
  · exact hstep.solid
  · rintro instrument timeframe nowNs bars rfl hasked hbars haccepts a ha c hac hc
    obtain ⟨count, hcount⟩ := Option.isSome_iff_exists.1 hasked
    obtain ⟨-, hgap, hanswers⟩ := hm count hcount
    have hanswer := (hanswers bars rfl).resolve_left hbars
    rw [MarketFeed.step, stored_of_accepts hasked haccepts] at ha ⊢
    rcases ha with hold | hnew
    · by_cases hlast : ∃ b ∈ s.store.stored instrument timeframe, c ≤ b
      · obtain ⟨b, hb, hcb⟩ := hlast
        exact .inl ((h.solid instrument timeframe).mem_of_le hold hb hc.start hac hcb)
      · refine .inr (h.mem_freshStarts hcount hgap hanswer hold ?_ hc)
        intro b hb
        by_contra hcb
        exact hlast ⟨b, hb, not_lt.1 hcb⟩
    · exact .inr ((venues instrument timeframe).mem_freshStarts_of_le hanswer hnew hac hc)

theorem sound_new (history : ℕ) : Sound venues { history } where
  onVenue := by
    rintro instrument timeframe a ⟨r, hr, -⟩
    cases hr
  solid := by
    rintro instrument timeframe a ⟨r, hr, -⟩
    cases hr
  rows := by
    intro k r hr
    cases hr

/-- Every run of promised refreshes from an empty store, of any series in any
order and with restarts, keeps the series. -/
theorem seriesKept_run (venues : ∀ instrument timeframe, Venue instrument timeframe) (history : ℕ)
    {ms : List FeedMove} (h : Along MarketFeed.step (AsPromised venues) { history } ms) :
    Along MarketFeed.step (Kept venues) { history } ms := by
  apply Along.mono (I := Sound venues) (P := AsPromised venues)
  · exact fun s m hs hm => hs.step hm
  · exact fun s m hs hm => hs.kept hm
  · exact sound_new history
  · exact h

end MarketFeed

theorem intervalNs_pos (timeframe : String) : 0 < intervalNs timeframe := by
  have hseconds : 0 < barSeconds timeframe := by
    unfold barSeconds
    split <;> norm_num
  exact mul_pos hseconds (by norm_num)

def threeBars (instrument timeframe : String) : Venue instrument timeframe where
  starts := {0, intervalNs timeframe, 2 * intervalNs timeframe}
  endOf c := c + intervalNs timeframe
  bar _ c :=
    { instrument, timeframe, openPrice := 1, high := 1, low := 1, close := 1, volume := 0
      startNs := c, endNs := c + intervalNs timeframe
      low_le_high := le_rfl, open_within := ⟨le_rfl, le_rfl⟩, close_within := ⟨le_rfl, le_rfl⟩
      start_lt_end := by have := intervalNs_pos timeframe; omega }
  key_bar _ _ := rfl
  endNs_bar _ _ := rfl
  endOf_mono _ _ _ _ h := by omega
  finished _ _ _ _ _ _ _ := rfl
  finite_later c hc nowNs := by
    have hfinite : Set.Finite {0, intervalNs timeframe, 2 * intervalNs timeframe} := by simp
    exact hfinite.subset fun x hx => hx.1
  few_later c hc nowNs := by
    have hpos := intervalNs_pos timeframe
    have hsub : {c' ∈ ({0, intervalNs timeframe, 2 * intervalNs timeframe} : Set ℤ) |
        c < c' ∧ c' ≤ nowNs} ⊆ {intervalNs timeframe, 2 * intervalNs timeframe} := by
      rintro x ⟨rfl | rfl | rfl, hlt, -⟩
      · rcases hc with rfl | rfl | rfl <;> omega
      · simp
      · simp
    have hcard := Set.ncard_le_ncard hsub (by simp)
    have htwo := Set.ncard_insert_le (intervalNs timeframe) {2 * intervalNs timeframe}
    rw [Set.ncard_singleton] at htwo
    have hnonneg : 0 ≤ max 0 (nowNs - c) / intervalNs timeframe :=
      Int.ediv_nonneg (le_max_left _ _) hpos.le
    omega

namespace MarketFeed

/-- The bars of `threeBars` with these starts. -/
def barsAt (starts : List ℤ) : List Bar :=
  starts.map ((threeBars "EUR_USD" "H1").bar 0)

def hourNs : ℤ := 3600000000000

theorem answers_barsAt {nowNs : ℤ} {count : ℕ} {starts : List ℤ}
    (hshown : ∀ c ∈ starts, c ∈ (threeBars "EUR_USD" "H1").starts ∧ c ≤ nowNs)
    (hall : ∀ c ∈ (threeBars "EUR_USD" "H1").starts, c < nowNs → c ∈ starts) :
    (threeBars "EUR_USD" "H1").Answers nowNs count (barsAt starts) where
  shown b hb := by
    obtain ⟨c, hc, rfl⟩ := List.mem_map.1 hb
    exact ⟨c, (hshown c hc).1, (hshown c hc).2, rfl⟩
  recent c hc hnow _ := List.mem_map.2 ⟨c, hall c hc hnow, rfl⟩
  solid _ _ c' hc' _ hnow _ := List.mem_map.2 ⟨c', hall c' hc' hnow, rfl⟩

theorem asPromised_first :
    AsPromised threeBars {} (.ingest "EUR_USD" "H1" hourNs (some (barsAt [0]))) := by
  intro count _
  refine ⟨?_, ?_, ?_⟩
  · intro k r hr
    cases hr
  · intro last hlast
    cases hlast
  · intro bars hbars
    obtain rfl := Option.some.inj hbars
    right
    apply answers_barsAt
    · simp [threeBars, hourNs]
    · rintro c (rfl | rfl | rfl) hnow
      · simp
      · exact absurd hnow (by decide)
      · exact absurd hnow (by decide)

def firstRefresh : FeedMove := .ingest "EUR_USD" "H1" hourNs (some (barsAt [0]))

theorem asPromised_second {starts : List ℤ} (hperm : starts.Perm [0, hourNs, 2 * hourNs]) :
    AsPromised threeBars (step {} firstRefresh)
      (.ingest "EUR_USD" "H1" (3 * hourNs) (some (barsAt starts))) := by
  have hlatest : (step {} firstRefresh).store.latestStartNs "EUR_USD" "H1" = some 0 := by
    decide +kernel
  intro count _
  refine ⟨?_, ?_, ?_⟩
  · intro k r hr
    have hrows : ∀ kv ∈ (step {} firstRefresh).store.rows.items,
        kv.2.receivedNs ≤ 3 * hourNs := by
      decide +kernel
    exact hrows (k, r) ((Dict.mem_items_iff _ _ _).2 hr)
  · intro last hlast
    obtain rfl := Option.some.inj (hlatest.symm.trans hlast)
    have hfew := (threeBars "EUR_USD" "H1").few_later 0 (by simp [threeBars]) (3 * hourNs)
    have hhours : max 0 (3 * hourNs - 0) / intervalNs "H1" + 2 = 5 := by decide +kernel
    rw [hhours] at hfew
    have hhistory : (step {} firstRefresh).history = 1500 := by decide +kernel
    rw [hhistory]
    change ((Venue.later _ _ _).ncard : ℤ) ≤ 5 at hfew
    omega
  · intro bars hbars
    obtain rfl := Option.some.inj hbars
    right
    apply answers_barsAt
    · intro c hc
      rw [hperm.mem_iff] at hc
      revert c
      simp [threeBars, hourNs, intervalNs, barSeconds]
    · intro c hc _
      rw [hperm.mem_iff]
      rcases hc with rfl | rfl | rfl
      · simp
      · simp [hourNs, intervalNs, barSeconds]
      · simp [hourNs, intervalNs, barSeconds]

/-- The first refresh of a store finds the venue's first bar, the second the two after. -/
theorem seriesKept_run_twoRefreshes :
    Along MarketFeed.step (Kept threeBars) {}
      [firstRefresh, .ingest "EUR_USD" "H1" (3 * hourNs)
        (some (barsAt [0, hourNs, 2 * hourNs]))] :=
  seriesKept_run threeBars 1500 ⟨asPromised_first, asPromised_second (List.Perm.refl _), trivial⟩

/-- Two bars later the venue answers newest first: the answer is refused, and the
bar that it completed in between is not stored. -/
theorem not_whole_outOfOrder :
    let first : FeedMove := .ingest "EUR_USD" "H1" hourNs (some (barsAt [0]))
    let second : FeedMove :=
      .ingest "EUR_USD" "H1" (3 * hourNs) (some (barsAt [2 * hourNs, hourNs, 0]))
    let stored := ([first, second].foldl MarketFeed.step {}).store.stored "EUR_USD" "H1"
    Along MarketFeed.step (AsPromised threeBars) {} [first, second] ∧ 0 ∈ stored ∧
      (threeBars "EUR_USD" "H1").Completed (3 * hourNs) hourNs ∧ hourNs ∉ stored := by
  intro first second stored
  refine ⟨⟨asPromised_first, asPromised_second (by decide), trivial⟩, ?_, ?_, ?_⟩
  · have hseries : 0 ∈ (([first, second].foldl MarketFeed.step {}).store.series
        "EUR_USD" "H1").map Prod.fst := by
      decide +kernel
    exact BarStore.mem_starts.1 hseries
  · exact ⟨by simp [threeBars, hourNs, intervalNs, barSeconds], rfl, by decide⟩
  · rintro ⟨r, hr, -⟩
    have hnone : (([first, second].foldl MarketFeed.step {}).store.rows.get?
        ⟨"EUR_USD", "H1", hourNs⟩).isNone = true := by
      decide +kernel
    rw [hr] at hnone
    cases hnone

end MarketFeed

end Sentinel
