import Sentinel.Agent.Periods
import Sentinel.Agent.Persistence

/-!
# The window of the rolling loss

The marks of equity are at most one in five minutes, so those of a day never fill their
deque: a mark goes only once it is older than a day.  The deque is written to the state
file with the rest of the agent, at events and not at every cycle, so a process that ends
in between takes the marks since the last write with it.
-/

namespace Sentinel

namespace Agent

def markBucketNs : ℤ := 300000000000

def windowNs : ℤ := 86400000000000

structure Marking where
  agent : Agent := {}
  nowNs : ℤ := 0
  saved : Option Agent := none
  taken : List (ℤ × Dec) := []
  lost : List (ℤ × Dec) := []

def fresh (marks : List (ℤ × Dec)) (nowNs : ℤ) (equity : Dec) : List (ℤ × Dec) :=
  if marks.getLast?.any fun mark => nowNs / markBucketNs = mark.1 / markBucketNs then []
  else [(nowNs, equity)]

/-- A cycle some time after the last one, a change of the agent that leaves the marks
alone, `_save_state`, and a new process. -/
inductive MarkMove where
  | cycle (laterNs : ℕ) (equity : Dec)
  | other (a : Agent)
  | save
  | restart

namespace Marking

def cycle (m : Marking) (nowNs : ℤ) (equity : Dec) : Marking :=
  { m with
    agent := (m.agent.rolling24hPnl nowNs equity).1
    nowNs
    taken := m.taken ++ fresh m.agent.equityMarks.items nowNs equity }

def reloaded (m : Marking) : Agent :=
  match m.saved with
  | none => {}
  | some a =>
      match ({} : Agent).load (.saved a.save) with
      | .ok (b, _) => b
      | .error _ => {}

def restart (m : Marking) : Marking :=
  { m with
    agent := m.reloaded
    lost := m.lost ++
      m.agent.equityMarks.items.filter fun mark => mark ∉ m.reloaded.equityMarks.items }

def step (m : Marking) : MarkMove → Marking
  | .cycle laterNs equity => m.cycle (m.nowNs + laterNs + 1) equity
  | .other a => { m with agent := { a with equityMarks := m.agent.equityMarks } }
  | .save => { m with saved := some m.agent }
  | .restart => m.restart

/-! ## The marks of a day -/

def recent (nowNs : ℤ) (marks : List (ℤ × Dec)) : List (ℤ × Dec) :=
  marks.filter fun mark => nowNs - windowNs ≤ mark.1

def Ordered (marks : List (ℤ × Dec)) : Prop :=
  marks.Pairwise fun mark mark' => mark.1 / markBucketNs < mark'.1 / markBucketNs

variable {marks : List (ℤ × Dec)}

theorem length_le_of_ordered {a b : ℤ} (hordered : Ordered marks)
    (hlow : ∀ mark ∈ marks, a ≤ mark.1 / markBucketNs)
    (hhigh : ∀ mark ∈ marks, mark.1 / markBucketNs ≤ b) (hle : a ≤ b + 1) :
    (marks.length : ℤ) ≤ b - a + 1 := by
  induction marks generalizing a with
  | nil =>
    rw [List.length_nil, Nat.cast_zero]
    omega
  | cons mark marks ih =>
    obtain ⟨hfirst, hrest⟩ := List.pairwise_cons.mp hordered
    have hmark := hlow mark List.mem_cons_self
    have hmark' := hhigh mark List.mem_cons_self
    have htail := ih (a := mark.1 / markBucketNs + 1) hrest hfirst
      (fun mark' h => hhigh mark' (List.mem_cons_of_mem _ h)) (by omega)
    rw [List.length_cons, Nat.cast_succ]
    omega

theorem length_recent_lt {nowNs : ℤ} (hordered : Ordered marks)
    (hnow : ∀ mark ∈ marks, mark.1 ≤ nowNs) : (recent nowNs marks).length < 400 := by
  have hbuckets := length_le_of_ordered (a := (nowNs - windowNs) / markBucketNs)
    (b := nowNs / markBucketNs) (hordered.sublist List.filter_sublist)
    (fun mark h => Int.ediv_le_ediv (by decide) (of_decide_eq_true (List.mem_filter.mp h).2))
    (fun mark h => Int.ediv_le_ediv (by decide) (hnow mark (List.mem_filter.mp h).1))
    (by simp only [markBucketNs, windowNs]; omega)
  change ((recent nowNs marks).length : ℤ) ≤ _ at hbuckets
  simp only [markBucketNs, windowNs] at hbuckets
  omega

theorem dropWhile_eq_recent (hordered : Ordered marks) (nowNs : ℤ) :
    marks.dropWhile (fun mark => mark.1 < nowNs - windowNs) = recent nowNs marks := by
  induction marks with
  | nil => rfl
  | cons mark marks ih =>
    obtain ⟨hfirst, hrest⟩ := List.pairwise_cons.mp hordered
    by_cases hold : mark.1 < nowNs - windowNs
    · rw [List.dropWhile_cons, if_pos (decide_eq_true hold), ih hrest, recent, recent,
        List.filter_cons, if_neg (by rwa [decide_eq_true_iff, not_le])]
    · rw [List.dropWhile_cons, if_neg (by rwa [decide_eq_true_iff]), recent, eq_comm,
        List.filter_eq_self]
      intro mark' hmem
      rcases List.mem_cons.mp hmem with rfl | hmem
      · rwa [decide_eq_true_iff, ← not_lt]
      · have hlater := hfirst mark' hmem
        simp only [markBucketNs] at hlater
        rw [decide_eq_true_iff]
        omega

theorem eq_of_increasing {marks' : List (ℤ × Dec)}
    (h : marks.Pairwise fun mark mark' => mark.1 < mark'.1)
    (h' : marks'.Pairwise fun mark mark' => mark.1 < mark'.1)
    (hmem : ∀ mark, mark ∈ marks ↔ mark ∈ marks') : marks = marks' := by
  have hne : ∀ mark mark' : ℤ × Dec, mark.1 < mark'.1 → mark ≠ mark' := by
    rintro mark mark' hlt rfl
    exact hlt.ne rfl
  have hperm : marks.Perm marks' :=
    (List.perm_ext_iff_of_nodup (h.imp (hne _ _)) (h'.imp (hne _ _))).mpr hmem
  exact hperm.eq_of_pairwise (fun mark mark' _ _ hlt hgt => absurd hgt hlt.asymm) h h'

/-! ## What is held of what was taken -/

structure Holds (m : Marking) (items : List (ℤ × Dec)) : Prop where
  taken : items.Sublist m.taken
  ordered : Ordered items
  notLost : ∀ mark ∈ items, mark ∉ m.lost
  oneDay : ∃ last, ∀ mark ∈ items, last - windowNs ≤ mark.1 ∧ mark.1 ≤ last

structure Kept (m : Marking) : Prop where
  increasing : m.taken.Pairwise fun mark mark' => mark.1 < mark'.1
  past : ∀ mark ∈ m.taken, mark.1 ≤ m.nowNs
  lost : ∀ mark ∈ m.lost, mark ∈ m.taken
  held : m.Holds m.agent.equityMarks.items
  file : ∀ a ∈ m.saved, m.Holds a.equityMarks.items
  aged : ∀ mark ∈ m.taken, mark ∉ m.lost → mark ∉ m.agent.equityMarks.items →
    mark.1 < m.nowNs - windowNs

theorem Holds.nil (m : Marking) : m.Holds [] where
  taken := List.nil_sublist _
  ordered := List.Pairwise.nil
  notLost _ h := nomatch h
  oneDay := ⟨0, fun _ h => nomatch h⟩

theorem kept_start (nowNs : ℤ) : Kept { nowNs } where
  increasing := List.Pairwise.nil
  past _ h := nomatch h
  lost _ h := nomatch h
  held := Holds.nil _
  file _ h := nomatch h
  aged _ h := nomatch h

variable {m : Marking}

theorem Holds.congr {m' : Marking} {items : List (ℤ × Dec)} (h : m.Holds items)
    (htaken : m'.taken = m.taken) (hlost : m'.lost = m.lost) : m'.Holds items where
  taken := htaken ▸ h.taken
  ordered := h.ordered
  notLost := hlost ▸ h.notLost
  oneDay := h.oneDay

theorem Holds.length_lt {items : List (ℤ × Dec)} (h : m.Holds items) : items.length < 400 := by
  obtain ⟨last, hlast⟩ := h.oneDay
  have hitems : recent last items = items :=
    List.filter_eq_self.mpr fun mark hmark => decide_eq_true (hlast mark hmark).1
  rw [← hitems]
  exact length_recent_lt h.ordered fun mark hmark => (hlast mark hmark).2

theorem Kept.ordered_fresh (h : m.Kept) {nowNs : ℤ} (hlater : m.nowNs < nowNs) (equity : Dec) :
    Ordered (m.agent.equityMarks.items ++ fresh m.agent.equityMarks.items nowNs equity) := by
  rw [fresh]
  split_ifs with hsame
  · rw [List.append_nil]
    exact h.held.ordered
  · refine List.pairwise_append.mpr ⟨h.held.ordered, List.pairwise_singleton _ _, ?_⟩
    intro mark hmark mark' hmark'
    obtain rfl := List.mem_singleton.mp hmark'
    have hpast : ∀ mark ∈ m.agent.equityMarks.items,
        mark.1 / markBucketNs ≤ nowNs / markBucketNs := fun mark hmem =>
      Int.ediv_le_ediv (by decide) ((h.past mark (h.held.taken.subset hmem)).trans hlater.le)
    refine lt_of_le_of_ne (hpast mark hmark) fun heq => hsame ?_
    change mark.1 / markBucketNs = nowNs / markBucketNs at heq
    have hpart := h.held.ordered
    -- a mark of this bucket is the newest that is held
    rcases List.eq_nil_or_concat m.agent.equityMarks.items with hnil | ⟨before, newest, hconcat⟩
    · rw [hnil] at hmark
      cases hmark
    · rw [List.concat_eq_append] at hconcat
      rw [hconcat] at hmark hpart hpast ⊢
      have hnewest := hpast newest (List.mem_append_right _ List.mem_cons_self)
      rw [List.getLast?_concat, Option.any_some, decide_eq_true_iff]
      rcases List.mem_append.mp hmark with hbefore | hsame
      · have hless := (List.pairwise_append.mp hpart).2.2 mark hbefore newest List.mem_cons_self
        omega
      · rw [← List.mem_singleton.mp hsame, heq]

theorem Kept.items_cycle (h : m.Kept) {nowNs : ℤ} (hlater : m.nowNs < nowNs) (equity : Dec) :
    (m.cycle nowNs equity).agent.equityMarks.items =
      recent nowNs (m.agent.equityMarks.items ++
        fresh m.agent.equityMarks.items nowNs equity) := by
  have hmarked : (if m.agent.equityMarks.items.getLast?.any fun mark =>
        nowNs / markBucketNs = mark.1 / markBucketNs then m.agent.equityMarks
      else m.agent.equityMarks.push (nowNs, equity)).items =
        m.agent.equityMarks.items ++ fresh m.agent.equityMarks.items nowNs equity := by
    rw [fresh]
    split_ifs
    · exact (List.append_nil _).symm
    · exact BoundedList.push_items_of_lt _ _ h.held.length_lt
  have hdrop := dropWhile_eq_recent (h.ordered_fresh hlater equity) nowNs
  rw [← hmarked] at hdrop
  rw [← hmarked]
  exact hdrop

theorem mem_fresh {marks : List (ℤ × Dec)} {nowNs : ℤ} {equity : Dec} {mark : ℤ × Dec}
    (h : mark ∈ fresh marks nowNs equity) : mark.1 = nowNs := by
  rw [fresh] at h
  split_ifs at h
  · cases h
  · rw [List.mem_singleton.mp h]

theorem Kept.cycle (h : m.Kept) {nowNs : ℤ} (hlater : m.nowNs < nowNs) (equity : Dec) :
    (m.cycle nowNs equity).Kept := by
  have hitems := h.items_cycle hlater equity
  have hnew : ∀ mark ∈ m.lost, mark.1 < nowNs := fun mark hmark =>
    (h.past mark (h.lost mark hmark)).trans_lt hlater
  refine ⟨?_, ?_, fun mark hmark => List.mem_append_left _ (h.lost mark hmark), ?_, ?_, ?_⟩
  · rw [Marking.cycle]
    refine List.pairwise_append.mpr ⟨h.increasing, ?_, fun mark hmark mark' hmark' => ?_⟩
    · rw [fresh]
      split_ifs
      · exact List.Pairwise.nil
      · exact List.pairwise_singleton _ _
    · rw [mem_fresh hmark']
      exact (h.past mark hmark).trans_lt hlater
  · intro mark hmark
    rcases List.mem_append.mp hmark with hmark | hmark
    · exact (h.past mark hmark).trans hlater.le
    · exact (mem_fresh hmark).le
  · rw [hitems]
    refine ⟨List.filter_sublist.trans (h.held.taken.append_right _),
      (h.ordered_fresh hlater equity).sublist List.filter_sublist, fun mark hmark hlost => ?_,
      nowNs, fun mark hmark => ⟨of_decide_eq_true (List.mem_filter.mp hmark).2, ?_⟩⟩
    · rcases List.mem_append.mp (List.mem_filter.mp hmark).1 with hheld | hfresh
      · exact h.held.notLost mark hheld hlost
      · exact (hnew mark hlost).ne (mem_fresh hfresh)
    · rcases List.mem_append.mp (List.mem_filter.mp hmark).1 with hheld | hfresh
      · exact (h.past mark (h.held.taken.subset hheld)).trans hlater.le
      · exact (mem_fresh hfresh).le
  · intro a ha
    obtain ⟨htaken, hordered, hnotLost, hday⟩ := h.file a ha
    exact ⟨htaken.trans (List.sublist_append_left _ _), hordered, hnotLost, hday⟩
  · intro mark hmark hlost hnot
    rw [hitems, recent, List.mem_filter, decide_eq_true_iff] at hnot
    rcases List.mem_append.mp hmark with htaken | hfresh
    · by_cases hheld : mark ∈ m.agent.equityMarks.items
      · by_contra hle
        exact hnot ⟨List.mem_append_left _ hheld, not_lt.mp hle⟩
      · exact (h.aged mark htaken hlost hheld).trans (by
          change m.nowNs - windowNs < nowNs - windowNs
          omega)
    · refine absurd ⟨List.mem_append_right _ hfresh, ?_⟩ hnot
      rw [mem_fresh hfresh, windowNs]
      omega

theorem Kept.held_reloaded (h : m.Kept) : m.Holds m.reloaded.equityMarks.items := by
  rw [reloaded]
  cases hsaved : m.saved with
  | none => exact Holds.nil m
  | some a =>
      simp only [load_save]
      exact h.file a hsaved

theorem Kept.restart (h : m.Kept) : m.restart.Kept := by
  have hholds : ∀ items, m.Holds items → (∀ mark ∈ items, mark ∈ m.reloaded.equityMarks.items) →
      m.restart.Holds items := by
    rintro items ⟨htaken, hordered, hnotLost, hday⟩ hsubset
    refine ⟨htaken, hordered, fun mark hmark hlost => ?_, hday⟩
    rcases List.mem_append.mp hlost with hlost | hgone
    · exact hnotLost mark hmark hlost
    · exact of_decide_eq_true (List.mem_filter.mp hgone).2 (hsubset mark hmark)
  refine ⟨h.increasing, h.past, fun mark hmark => ?_,
    hholds _ h.held_reloaded fun _ hmark => hmark, fun a ha => ?_, fun mark hmark hlost hnot => ?_⟩
  · rcases List.mem_append.mp hmark with hmark | hmark
    · exact h.lost mark hmark
    · exact h.held.taken.subset (List.mem_of_mem_filter hmark)
  · refine hholds _ (h.file a ha) fun mark hmark => ?_
    rw [reloaded, show m.saved = some a from ha]
    simp only [load_save]
    exact hmark
  · refine h.aged mark hmark (fun hmem => hlost (List.mem_append_left _ hmem)) fun hmem => ?_
    exact hlost (List.mem_append_right _ (List.mem_filter.mpr ⟨hmem, decide_eq_true hnot⟩))

theorem Kept.step (h : m.Kept) (move : MarkMove) : (m.step move).Kept := by
  cases move with
  | cycle laterNs equity => exact h.cycle (by omega) equity
  | other a =>
      exact ⟨h.increasing, h.past, h.lost, h.held.congr rfl rfl,
        fun b hb => (h.file b hb).congr rfl rfl, h.aged⟩
  | save =>
      refine ⟨h.increasing, h.past, h.lost, h.held.congr rfl rfl, fun a ha => ?_, h.aged⟩
      obtain rfl := Option.some.inj ha
      exact h.held.congr rfl rfl
  | restart => exact h.restart

/-! ## Over a run -/

def Rolls (m : Marking) : MarkMove → Prop
  | .cycle laterNs equity =>
      let nowNs := m.nowNs + laterNs + 1
      let after := m.cycle nowNs equity
      after.agent.equityMarks.items = recent nowNs after.taken ∧
        (m.agent.rolling24hPnl nowNs equity).2 =
          ((after.taken.find? fun mark => nowNs - windowNs ≤ mark.1).elim 0 fun mark =>
            equity - mark.2)
  | _ => True

def LostAged (m : Marking) : MarkMove → Prop
  | .cycle laterNs _ => ∀ mark ∈ m.lost, mark.1 < m.nowNs + laterNs + 1 - windowNs
  | _ => True

instance (m : Marking) (move : MarkMove) : Decidable (m.LostAged move) :=
  match move with
  | .cycle laterNs _ =>
      inferInstanceAs (Decidable (∀ mark ∈ m.lost, mark.1 < m.nowNs + laterNs + 1 - windowNs))
  | .other _ | .save | .restart => isTrue trivial

theorem rolling24hPnl_snd (m : Marking) (nowNs : ℤ) (equity : Dec) :
    (m.agent.rolling24hPnl nowNs equity).2 =
      (m.cycle nowNs equity).agent.equityMarks.items.head?.elim 0 fun mark => equity - mark.2 := by
  simp only [cycle, Agent.rolling24hPnl]
  split
  next hnone => rw [hnone, Option.elim_none]
  next mark hsome => rw [hsome, Option.elim_some]

theorem rolls_iff (h : m.Kept) (move : MarkMove) : m.Rolls move ↔ m.LostAged move := by
  cases move with
  | other | save | restart => exact Iff.rfl
  | cycle laterNs equity =>
      simp only [Rolls, LostAged]
      have hlater : m.nowNs < m.nowNs + laterNs + 1 := by omega
      generalize m.nowNs + laterNs + 1 = nowNs at hlater ⊢
      have hitems := h.items_cycle hlater equity
      constructor
      · rintro ⟨hall, -⟩ mark hlost
        by_contra hyoung
        have hrecent : mark ∈ recent nowNs (m.cycle nowNs equity).taken :=
          List.mem_filter.mpr ⟨List.mem_append_left _ (h.lost mark hlost),
            decide_eq_true (not_lt.mp hyoung)⟩
        rw [← hall] at hrecent
        exact (h.cycle hlater equity).held.notLost mark hrecent hlost
      · intro hlost
        have hall : (m.cycle nowNs equity).agent.equityMarks.items =
            recent nowNs (m.cycle nowNs equity).taken := by
          have hafter := h.cycle hlater equity
          refine eq_of_increasing (hafter.increasing.sublist hafter.held.taken)
            (hafter.increasing.sublist List.filter_sublist) fun mark => ⟨fun hmark => ?_, ?_⟩
          · rw [hitems] at hmark
            exact List.mem_filter.mpr ⟨hafter.held.taken.subset (hitems ▸ hmark),
              (List.mem_filter.mp hmark).2⟩
          · intro hmark
            obtain ⟨htaken, hyoung⟩ := List.mem_filter.mp hmark
            by_contra hnot
            have hle := of_decide_eq_true hyoung
            refine (hafter.aged mark htaken (fun hgone => ?_) hnot).not_ge hle
            exact (hlost mark hgone).not_ge hle
        refine ⟨hall, ?_⟩
        rw [rolling24hPnl_snd, hall, recent, List.head?_filter]

/-- In every run a cycle keeps the marks of the last day and measures from the oldest of
them exactly where none of these went with a process before the file had it. -/
theorem rolling_window_iff (nowNs : ℤ) (moves : List MarkMove) :
    Along step Rolls { nowNs } moves ↔ Along step LostAged { nowNs } moves :=
  Along.iff_of_kept (I := Kept) (fun _ move h _ => h.step move) (fun _ move h => rolls_iff h move)
    (kept_start nowNs)

/-- Two cycles an hour apart and a loss between them, no write of the file, a new process. -/
theorem not_rolls_crash :
    ¬ Along step Rolls {}
      [.cycle 0 10000, .cycle 3600000000000 9000, .restart, .cycle 3600000000000 9000] := by
  rw [rolling_window_iff]
  decide +kernel

end Marking

end Agent

end Sentinel
