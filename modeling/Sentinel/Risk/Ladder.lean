import Sentinel.Risk.Sizing

/-!
# The rungs of the drawdown ladder

A drawdown reaches the rungs whose thresholds it has passed; a rung above them
is released when the drawdown is clear of the band below its threshold.  What
is released with it are the rungs in between, in whose bands the drawdown may
still lie.
-/

namespace Sentinel

/-! ## The rungs that are reached -/

theorem targetRung_concat (drawdownPct : Dec) (ladder : List LadderRow) (row : LadderRow) :
    targetRung drawdownPct (ladder ++ [row]) =
      if row.drawdownPct ≤ drawdownPct then ladder.length + 1
      else targetRung drawdownPct ladder := by
  simp [targetRung, List.zipIdx_append, Nat.add_comm]

theorem targetRung_le_length (drawdownPct : Dec) (ladder : List LadderRow) :
    targetRung drawdownPct ladder ≤ ladder.length := by
  induction ladder using List.reverseRecOn with
  | nil => exact le_rfl
  | append_singleton ladder row ih =>
      rw [targetRung_concat, List.length_append, List.length_singleton]
      split_ifs
      · exact le_rfl
      · exact ih.trans (Nat.le_succ _)

theorem targetRung_mono (ladder : List LadderRow) {drawdownPct deeperPct : Dec}
    (h : drawdownPct ≤ deeperPct) :
    targetRung drawdownPct ladder ≤ targetRung deeperPct ladder := by
  induction ladder using List.reverseRecOn with
  | nil => exact le_rfl
  | append_singleton ladder row ih =>
      rw [targetRung_concat, targetRung_concat]
      by_cases hrow : row.drawdownPct ≤ drawdownPct
      · rw [if_pos hrow, if_pos (hrow.trans h)]
      · rw [if_neg hrow]
        by_cases hdeeper : row.drawdownPct ≤ deeperPct
        · rw [if_pos hdeeper]
          exact (targetRung_le_length drawdownPct ladder).trans (Nat.le_succ _)
        · rw [if_neg hdeeper]
          exact ih

theorem lt_drawdownPct_iff {ladder : List LadderRow}
    (hascending : ladder.Pairwise fun a b => a.drawdownPct ≤ b.drawdownPct)
    {drawdownPct : Dec} {k : ℕ} {row : LadderRow} (hrow : ladder[k]? = some row) :
    drawdownPct < row.drawdownPct ↔ targetRung drawdownPct ladder ≤ k := by
  induction ladder using List.reverseRecOn with
  | nil => simp at hrow
  | append_singleton ladder last ih =>
      rw [List.pairwise_append] at hascending
      obtain ⟨hladder, -, hlast⟩ := hascending
      rw [targetRung_concat]
      rcases lt_trichotomy k ladder.length with hk | rfl | hk
      · rw [List.getElem?_append_left hk] at hrow
        have hbelow : row.drawdownPct ≤ last.drawdownPct :=
          hlast row (List.mem_of_getElem? hrow) last (List.mem_singleton_self last)
        by_cases hreached : last.drawdownPct ≤ drawdownPct
        · rw [if_pos hreached]
          constructor
          · intro hlt
            exact absurd (hbelow.trans hreached) (not_le.2 hlt)
          · intro hle
            omega
        · rw [if_neg hreached]
          exact ih hladder hrow
      · have hsame : last = row := by simpa using hrow
        rw [hsame]
        by_cases hreached : row.drawdownPct ≤ drawdownPct
        · rw [if_pos hreached]
          constructor
          · intro hlt
            exact absurd hreached (not_le.2 hlt)
          · intro hle
            omega
        · rw [if_neg hreached]
          exact iff_of_true (not_le.1 hreached) (targetRung_le_length drawdownPct ladder)
      · have hlen : (ladder ++ [last]).length ≤ k := by
          rw [List.length_append, List.length_singleton]
          exact hk
        rw [List.getElem?_eq_none hlen] at hrow
        cases hrow

/-! ## Held and released rungs -/

section Rungs

variable (ladder : List LadderRow) (hysteresisPct drawdownPct : Dec)

def HeldBy (rung : ℕ) : Prop :=
  ∃ row, 0 < rung ∧ ladder[rung - 1]? = some row ∧ row.drawdownPct - hysteresisPct < drawdownPct

def InBand (rung : ℕ) : Prop :=
  ∃ row, 0 < rung ∧ ladder[rung - 1]? = some row ∧
    row.drawdownPct - hysteresisPct < drawdownPct ∧ drawdownPct < row.drawdownPct

variable {ladder hysteresisPct drawdownPct}

variable (currentRung : ℕ)

theorem ladderRung_cases :
    (targetRung drawdownPct ladder < currentRung ∧
        HeldBy ladder hysteresisPct drawdownPct currentRung ∧
        ladderRung drawdownPct ladder currentRung hysteresisPct = currentRung) ∨
      ((currentRung ≤ targetRung drawdownPct ladder ∨
          ¬ HeldBy ladder hysteresisPct drawdownPct currentRung) ∧
        ladderRung drawdownPct ladder currentRung hysteresisPct =
          targetRung drawdownPct ladder) := by
  rw [ladderRung]
  by_cases htarget : currentRung ≤ targetRung drawdownPct ladder
  · exact .inr ⟨.inl htarget, if_pos htarget⟩
  · have hpos : 0 < currentRung := Nat.lt_of_le_of_lt (Nat.zero_le _) (not_le.1 htarget)
    simp only [if_neg htarget]
    rcases hrow : ladder[currentRung - 1]? with - | row
    · refine .inr ⟨.inr ?_, rfl⟩
      rintro ⟨row, -, hsome, -⟩
      rw [hrow] at hsome
      cases hsome
    · by_cases hclear : drawdownPct ≤ row.drawdownPct - hysteresisPct
      · refine .inr ⟨.inr ?_, if_pos hclear⟩
        rintro ⟨row', -, hsome, hheld⟩
        rw [hrow] at hsome
        rw [← Option.some.inj hsome] at hheld
        exact absurd hclear (not_le.2 hheld)
      · exact .inl ⟨not_le.1 htarget, ⟨row, hpos, hrow, not_le.1 hclear⟩, if_neg hclear⟩

theorem ladderRung_eq_of_heldBy {currentRung : ℕ}
    (habove : targetRung drawdownPct ladder < currentRung)
    (hheld : HeldBy ladder hysteresisPct drawdownPct currentRung) :
    ladderRung drawdownPct ladder currentRung hysteresisPct = currentRung := by
  rcases ladderRung_cases currentRung with ⟨-, -, hrung⟩ | ⟨hnot, -⟩
  · exact hrung
  · rcases hnot with hle | hfree
    · exact absurd habove (not_lt.2 hle)
    · exact absurd hheld hfree

theorem ladderRung_eq_of_not_heldBy {currentRung : ℕ}
    (h : ¬ HeldBy ladder hysteresisPct drawdownPct currentRung) :
    ladderRung drawdownPct ladder currentRung hysteresisPct = targetRung drawdownPct ladder := by
  rcases ladderRung_cases currentRung with ⟨-, hheld, -⟩ | ⟨-, hrung⟩
  · exact absurd hheld h
  · exact hrung

theorem ladderRung_eq_of_le {currentRung : ℕ} (h : currentRung ≤ targetRung drawdownPct ladder) :
    ladderRung drawdownPct ladder currentRung hysteresisPct = targetRung drawdownPct ladder := by
  rw [ladderRung, if_pos h]

theorem targetRung_le_ladderRung :
    targetRung drawdownPct ladder ≤ ladderRung drawdownPct ladder currentRung hysteresisPct := by
  rcases ladderRung_cases currentRung with ⟨hlt, -, hrung⟩ | ⟨-, hrung⟩
  · rw [hrung]
    exact hlt.le
  · exact hrung.ge

theorem inBand_iff (hascending : ladder.Pairwise fun a b => a.drawdownPct ≤ b.drawdownPct)
    (rung : ℕ) :
    InBand ladder hysteresisPct drawdownPct rung ↔
      targetRung drawdownPct ladder < rung ∧ HeldBy ladder hysteresisPct drawdownPct rung := by
  constructor
  · rintro ⟨row, hpos, hrow, hheld, hlt⟩
    have hle := (lt_drawdownPct_iff hascending hrow).1 hlt
    exact ⟨by omega, row, hpos, hrow, hheld⟩
  · rintro ⟨habove, row, hpos, hrow, hheld⟩
    exact ⟨row, hpos, hrow, hheld, (lt_drawdownPct_iff hascending hrow).2 (by omega)⟩

/-! ## What the ladder promises -/

theorem ladderRung_idem :
    ladderRung drawdownPct ladder (ladderRung drawdownPct ladder currentRung hysteresisPct)
      hysteresisPct = ladderRung drawdownPct ladder currentRung hysteresisPct := by
  rcases ladderRung_cases currentRung with ⟨-, -, hrung⟩ | ⟨-, hrung⟩
  · rw [hrung, hrung]
  · rw [hrung]
    exact ladderRung_eq_of_le le_rfl

theorem HeldBy.mono {rung : ℕ} {deeperPct : Dec} (h : drawdownPct ≤ deeperPct)
    (hheld : HeldBy ladder hysteresisPct drawdownPct rung) :
    HeldBy ladder hysteresisPct deeperPct rung := by
  obtain ⟨row, hpos, hrow, hlt⟩ := hheld
  exact ⟨row, hpos, hrow, hlt.trans_le h⟩

theorem ladderRung_mono_drawdown {deeperPct : Dec}
    (h : drawdownPct ≤ deeperPct) :
    ladderRung drawdownPct ladder currentRung hysteresisPct ≤
      ladderRung deeperPct ladder currentRung hysteresisPct := by
  rcases ladderRung_cases currentRung with ⟨-, hheld, hrung⟩ | ⟨-, hrung⟩
  · rw [hrung]
    by_cases habove : targetRung deeperPct ladder < currentRung
    · exact (ladderRung_eq_of_heldBy habove (hheld.mono h)).ge
    · exact (not_lt.1 habove).trans (targetRung_le_ladderRung currentRung)
  · rw [hrung]
    exact (targetRung_mono ladder h).trans (targetRung_le_ladderRung currentRung)

variable (ladder hysteresisPct drawdownPct)

/-- What a ladder is for, at one drawdown and one current rung: no milder
current rung leaves a more severe one, a rung that is given up is clear of its
band, a deeper drawdown leaves no milder rung, and a second evaluation changes
nothing. -/
structure LadderSound (currentRung : ℕ) : Prop where
  mono_rung : ∀ rung ≤ currentRung,
    ladderRung drawdownPct ladder rung hysteresisPct ≤
      ladderRung drawdownPct ladder currentRung hysteresisPct
  released : ∀ rung ≤ currentRung,
    ladderRung drawdownPct ladder currentRung hysteresisPct < rung →
    ∀ row ∈ ladder[rung - 1]?, drawdownPct ≤ row.drawdownPct - hysteresisPct
  mono_drawdown : ∀ deeperPct, drawdownPct ≤ deeperPct →
    ladderRung drawdownPct ladder currentRung hysteresisPct ≤
      ladderRung deeperPct ladder currentRung hysteresisPct
  idem : ladderRung drawdownPct ladder (ladderRung drawdownPct ladder currentRung hysteresisPct)
    hysteresisPct = ladderRung drawdownPct ladder currentRung hysteresisPct

variable {ladder hysteresisPct drawdownPct}

/-- The ladder is sound exactly when the current rung is itself held wherever
the drawdown lies in the band of a rung up to it: what is released with the
current rung are the rungs in between. -/
theorem ladderSound_iff {haltPct : Dec} (hladder : LadderCoherent ladder haltPct)
    (currentRung : ℕ) :
    LadderSound ladder hysteresisPct drawdownPct currentRung ↔
      ∀ rung ≤ currentRung, InBand ladder hysteresisPct drawdownPct rung →
        HeldBy ladder hysteresisPct drawdownPct currentRung := by
  constructor
  · intro hsound rung hrung hband
    obtain ⟨habove, hheld⟩ := (inBand_iff hladder.ascending rung).1 hband
    by_contra hfree
    have hkept := hsound.mono_rung rung hrung
    rw [ladderRung_eq_of_heldBy habove hheld, ladderRung_eq_of_not_heldBy hfree] at hkept
    omega
  · intro hbands
    refine ⟨?_, ?_, fun deeperPct h => ladderRung_mono_drawdown currentRung h,
      ladderRung_idem currentRung⟩
    · intro rung hrung
      rcases ladderRung_cases rung with ⟨habove, hheld, heq⟩ | ⟨-, heq⟩
      · have hcurrent := hbands rung hrung ((inBand_iff hladder.ascending rung).2 ⟨habove, hheld⟩)
        rw [heq, ladderRung_eq_of_heldBy (habove.trans_le hrung) hcurrent]
        exact hrung
      · rw [heq]
        exact targetRung_le_ladderRung currentRung
    · intro rung hrung hgiven row hrow
      by_contra hheld
      have habove : targetRung drawdownPct ladder < rung :=
        (targetRung_le_ladderRung currentRung).trans_lt hgiven
      have hheldBy : HeldBy ladder hysteresisPct drawdownPct rung :=
        ⟨row, by omega, hrow, not_le.1 hheld⟩
      have hcurrent :=
        hbands rung hrung ((inBand_iff hladder.ascending rung).2 ⟨habove, hheldBy⟩)
      rw [ladderRung_eq_of_heldBy (habove.trans_le hrung) hcurrent] at hgiven
      omega

/-- At a drawdown of four per cent the default ladder is on its first rung, in
no band. -/
theorem ladderSound_default :
    LadderSound defaultLadder (1 / 2) 4 2 ↔
      ∀ rung ≤ 2, InBand defaultLadder (1 / 2) 4 rung → HeldBy defaultLadder (1 / 2) 4 2 :=
  ladderSound_iff defaultLadder_coherent 2

/-- From the third rung a drawdown of 4.8 per cent releases the second as well,
whose band it is in; from the second it does not. -/
theorem ladder_skips_band :
    LadderCoherent defaultLadder 10 ∧
      ladderRung (24 / 5) defaultLadder 3 (1 / 2) = 1 ∧
      ladderRung (24 / 5) defaultLadder 2 (1 / 2) = 2 ∧
      ¬ LadderSound defaultLadder (1 / 2) (24 / 5) 3 := by
  have hthird : ladderRung (24 / 5) defaultLadder 3 (1 / 2) = 1 := by decide +kernel
  have hsecond : ladderRung (24 / 5) defaultLadder 2 (1 / 2) = 2 := by decide +kernel
  refine ⟨defaultLadder_coherent, hthird, hsecond, ?_⟩
  intro hsound
  have hmono := hsound.mono_rung 2 (by omega)
  rw [hthird, hsecond] at hmono
  omega

end Rungs

end Sentinel
