import Sentinel.Brokers.Rollover

/-!
# Rollover on a clock of any granularity

The financing of a position between two clock values is the same in one jump and
in any number of steps: the cursor has no gap and no overlap, and nothing else a
quote does charges financing.
-/

namespace Sentinel

namespace PaperBroker

/-! ## What else a quote does -/

def carried (b : PaperBroker) (symbol : String) : Option (Side × Dec × Dec) :=
  (b.positions.get? symbol).map fun pos => (pos.side, pos.lots, pos.financingPaid)

structure Rests (b b' : PaperBroker) : Prop where
  closed : b.closed.length ≤ b'.closed.length
  nowNs : b'.nowNs = b.nowNs
  lastRolloverDay : b'.lastRolloverDay = b.lastRolloverDay
  conversions : b'.conversions = b.conversions
  keys : b'.closed.length = b.closed.length → b'.positions.keys = b.positions.keys
  carried : b'.closed.length = b.closed.length → ∀ symbol, b'.carried symbol = b.carried symbol

instance : Std.Refl Rests := ⟨fun _ => ⟨le_rfl, rfl, rfl, rfl, fun _ => rfl, fun _ _ => rfl⟩⟩

instance : IsTrans PaperBroker Rests where
  trans b c d hbc hcd := by
    have hmid : d.closed.length = b.closed.length →
        c.closed.length = b.closed.length ∧ d.closed.length = c.closed.length := fun h => by
      have h1 := hbc.closed
      have h2 := hcd.closed
      omega
    exact
      { closed := hbc.closed.trans hcd.closed
        nowNs := hcd.nowNs.trans hbc.nowNs
        lastRolloverDay := hcd.lastRolloverDay.trans hbc.lastRolloverDay
        conversions := hcd.conversions.trans hbc.conversions
        keys := fun h => (hcd.keys (hmid h).2).trans (hbc.keys (hmid h).1)
        carried := fun h symbol =>
          (hcd.carried (hmid h).2 symbol).trans (hbc.carried (hmid h).1 symbol) }

section Quiet

variable (cfg : PaperSetup) (b : PaperBroker) (symbol : String) (left : PaperPosition)

@[simp] theorem protectBalance_closed : (b.protectBalance cfg).closed = b.closed := by
  rw [protectBalance]
  split_ifs
  · rfl
  · rfl

@[simp] theorem protectBalance_nowNs : (b.protectBalance cfg).nowNs = b.nowNs := by
  rw [protectBalance]
  split_ifs
  · rfl
  · rfl

@[simp] theorem protectBalance_lastRolloverDay :
    (b.protectBalance cfg).lastRolloverDay = b.lastRolloverDay := by
  rw [protectBalance]
  split_ifs
  · rfl
  · rfl

@[simp] theorem protectBalance_conversions :
    (b.protectBalance cfg).conversions = b.conversions := by
  rw [protectBalance]
  split_ifs
  · rfl
  · rfl

@[simp] theorem putBack_closed : (b.putBack symbol left).closed = b.closed := by
  rw [putBack]
  split_ifs
  · rfl
  · rfl

@[simp] theorem putBack_nowNs : (b.putBack symbol left).nowNs = b.nowNs := by
  rw [putBack]
  split_ifs
  · rfl
  · rfl

@[simp] theorem putBack_lastRolloverDay :
    (b.putBack symbol left).lastRolloverDay = b.lastRolloverDay := by
  rw [putBack]
  split_ifs
  · rfl
  · rfl

@[simp] theorem putBack_conversions : (b.putBack symbol left).conversions = b.conversions := by
  rw [putBack]
  split_ifs
  · rfl
  · rfl

theorem rests_realise (pos : PaperPosition) (inst : Instrument)
    (exitPrice lots : Dec) (tsNs : ℤ) (reason : String) (extraCommission : Dec) :
    Moves Rests (realise cfg symbol pos inst exitPrice lots tsNs reason extraCommission) := by
  intro b
  rw [finalState, run_realise]
  rcases b.conversionRate inst.quote cfg.currency with _ | rate
  · exact Std.Refl.refl b
  · -- the trade is recorded, so the book may change
    have hclosed : (b.realised cfg symbol pos inst exitPrice lots tsNs reason extraCommission
        rate).closed.length = b.closed.length + 1 := by
      simp [realised, recordTxn]
    exact
      { closed := by simp only [hclosed]; omega
        nowNs := by simp [realised, recordTxn]
        lastRolloverDay := by simp [realised, recordTxn]
        conversions := by simp [realised, recordTxn]
        keys := fun h => absurd h (by simp only [hclosed]; omega)
        carried := fun h => absurd h (by simp only [hclosed]; omega) }

theorem rests_account : Moves Rests (account cfg) := by
  refine Moves.bind_get fun b => ?_
  rcases b.positions.items.foldlM (b.mark cfg) (0, 0) with e | ⟨unreal, margin⟩
  · exact Std.Refl.refl b
  · exact ⟨le_rfl, rfl, rfl, rfl, fun _ => rfl, fun _ _ => rfl⟩

theorem rests_hold {b : PaperBroker} {symbol : String} {pos written : PaperPosition}
    (hpos : b.positions.get? symbol = some pos)
    (hsame : (written.side, written.lots, written.financingPaid) =
      (pos.side, pos.lots, pos.financingPaid)) : Rests b (b.hold symbol written) := by
  have hkey := Dict.mem_keys_of_get? hpos
  refine ⟨le_rfl, rfl, rfl, rfl, fun _ => Dict.keys_set_of_mem hkey _, fun _ other => ?_⟩
  by_cases hother : other = symbol
  · subst hother
    simpa [carried, hold, hpos] using hsame
  · simp [carried, hold, Dict.get?_set_of_ne _ hother]

theorem rests_trackExcursions (inst : Instrument) (q : Quote)
    {b : PaperBroker} {pos : PaperPosition} (hpos : b.positions.get? symbol = some pos) :
    Rests b (finalState (trackExcursions cfg symbol pos inst q) b) := by
  rw [trackExcursions]
  split_ifs with hrisk
  · rw [finalState_bind, run_conv]
    rcases b.conversionRate inst.quote cfg.currency with _ | rate
    · exact Std.Refl.refl b
    · exact rests_hold hpos rfl
  · exact Std.Refl.refl b

theorem rests_checkExits (q : Quote) (tsNs : ℤ) (slippagePips : Dec) :
    Moves Rests (checkExits cfg q tsNs slippagePips) := by
  refine Moves.bind_get fun b => ?_
  rcases hpos : b.positions.get? q.instrument with _ | held
  · exact Std.Refl.refl b
  · rcases hinst : cfg.instruments.get? q.instrument with _ | inst
    · exact Std.Refl.refl b
    · simp only
      have htrack := rests_trackExcursions cfg q.instrument inst q hpos
      refine IsTrans.trans b _ _ htrack (Moves.bind_rest (R := Rests) _ (fun pos => ?_) b)
      refine Moves.ite (fun _ => rests_realise cfg _ _ _ _ _ _ _ _) fun _ => ?_
      exact Moves.ite (fun _ => rests_realise cfg _ _ _ _ _ _ _ _) fun _ => Moves.pure _

theorem rests_closeLosers (n : ℕ) : Moves Rests (closeLosers cfg n) := by
  induction n with
  | zero => exact Moves.pure _
  | succ n ih =>
    refine Moves.bind_get fun b => ?_
    rcases b.positions.items.foldlM (b.worse cfg) none with e | ⟨_ | m⟩
    · exact Std.Refl.refl b
    · exact Std.Refl.refl b
    · refine Moves.bind (R := Rests) (rests_realise cfg _ _ _ _ _ _ _ _) (fun _ => ?_) b
      refine Moves.bind (rests_account cfg) fun acct => ?_
      exact Moves.ite (fun _ => Moves.pure _) fun _ => ih

theorem rests_checkMargin : Moves Rests (checkMargin cfg) := by
  refine Moves.bind (rests_account cfg) fun acct => ?_
  refine Moves.ite (fun _ => Moves.pure _) fun _ => ?_
  exact Moves.bind_get fun b => rests_closeLosers cfg _ b

end Quiet

/-! ## One quote -/

section Quotes

variable (cfg : PaperSetup) (b : PaperBroker) (q : Quote) (tsNs : ℤ)

/-- The venue after the first two statements of `on_quote`: the quote is stored,
the clock moved, and the account currency worth one of itself. -/
def quoted : PaperBroker :=
  let stored := { b with quotes := b.quotes.set q.instrument q, nowNs := max b.nowNs tsNs }
  match cfg.instruments.get? q.instrument with
  | some inst =>
      if inst.quote = cfg.currency then
        { stored with
          conversions := stored.conversions.set (inst.quote ++ "_" ++ cfg.currency) 1 }
      else stored
  | none => stored

theorem onQuote_eq (slippagePips : Dec) :
    finalState (onQuote cfg q tsNs slippagePips) b =
      finalState (do
        applyRollover cfg
        checkExits cfg q tsNs slippagePips
        checkMargin cfg) (quoted cfg b q tsNs) := by
  rw [onQuote, finalState_bind_modify, finalState_bind_modify]
  rfl

theorem quoted_frame :
    (quoted cfg b q tsNs).positions = b.positions ∧
      (quoted cfg b q tsNs).nowNs = max b.nowNs tsNs ∧
      (quoted cfg b q tsNs).lastRolloverDay = b.lastRolloverDay ∧
      (quoted cfg b q tsNs).closed = b.closed := by
  rw [quoted]
  rcases cfg.instruments.get? q.instrument with _ | inst
  · exact ⟨rfl, rfl, rfl, rfl⟩
  · simp only
    split_ifs
    · exact ⟨rfl, rfl, rfl, rfl⟩
    · exact ⟨rfl, rfl, rfl, rfl⟩

theorem conversionRate_quoted (currency : String) :
    (quoted cfg b q tsNs).conversionRate currency cfg.currency =
      b.conversionRate currency cfg.currency := by
  rw [quoted]
  rcases cfg.instruments.get? q.instrument with _ | inst
  · rfl
  · simp only
    split_ifs with haccount
    · unfold conversionRate
      split_ifs with hsame
      · rfl
      · have hforward : currency ++ "_" ++ cfg.currency ≠ cfg.currency ++ "_" ++ cfg.currency := by
          intro heq
          rw [String.append_left_inj, String.append_left_inj] at heq
          exact hsame heq
        have hinverse : cfg.currency ++ "_" ++ currency ≠ cfg.currency ++ "_" ++ cfg.currency := by
          intro heq
          rw [String.append_right_inj] at heq
          exact hsame heq
        simp only [haccount, Dict.get?_set_of_ne _ hforward, Dict.get?_set_of_ne _ hinverse]
    · rfl

theorem rateOf_quoted (symbol : String) :
    rateOf cfg (quoted cfg b q tsNs) symbol = rateOf cfg b symbol := by
  rw [rateOf, rateOf]
  rcases cfg.instruments.get? symbol with _ | inst
  · rfl
  · exact conversionRate_quoted cfg b q tsNs inst.quote

/-- From the value date `last` to `last'` every position is charged, and nothing
is closed. -/
structure Accrued (last last' : ℤ) (b b' : PaperBroker) : Prop where
  keys : b'.positions.keys = b.positions.keys
  rates : ∀ symbol, rateOf cfg b' symbol = rateOf cfg b symbol
  carried : ∀ symbol, b'.carried symbol = (b.carried symbol).map fun c =>
    (c.1, c.2.1, c.2.2 + ∑ d ∈ Finset.Ioc last last', financingOn cfg b symbol d)

theorem financingOn_congr {b b' : PaperBroker} {symbol : String}
    (hrate : rateOf cfg b' symbol = rateOf cfg b symbol)
    (hcarried : (b'.carried symbol).map (fun c => (c.1, c.2.1)) =
      (b.carried symbol).map fun c => (c.1, c.2.1)) :
    financingOn cfg b' symbol = financingOn cfg b symbol := by
  funext d
  simp only [financingOn, financingAt, hrate]
  simp only [PaperBroker.carried, Option.map_map, Function.comp_def] at hcarried
  rcases hpos : b.positions.get? symbol with _ | pos <;>
    rcases hpos' : b'.positions.get? symbol with _ | pos'
  · rfl
  · simp [hpos, hpos'] at hcarried
  · simp [hpos, hpos'] at hcarried
  · simp only [hpos, hpos', Option.map_some, Option.some.injEq, Prod.mk.injEq] at hcarried
    rcases cfg.instruments.get? symbol with _ | inst
    · rfl
    · simp only [hcarried.1, hcarried.2]

variable {cfg}

theorem Accrued.trans {a m z : ℤ} {b b' b'' : PaperBroker} (ham : a ≤ m) (hmz : m ≤ z)
    (h : Accrued cfg a m b b') (h' : Accrued cfg m z b' b'') : Accrued cfg a z b b'' where
  keys := h'.keys.trans h.keys
  rates symbol := (h'.rates symbol).trans (h.rates symbol)
  carried symbol := by
    have hsame : financingOn cfg b' symbol = financingOn cfg b symbol := by
      refine financingOn_congr cfg (h.rates symbol) ?_
      rw [h.carried, Option.map_map]
      rfl
    rw [h'.carried, h.carried, Option.map_map, hsame]
    congr 1
    funext c
    simp [← sum_Ioc_trans ham hmz, add_assoc]

theorem Accrued.of_rests {a z : ℤ} {b b' b'' : PaperBroker} (h : Accrued cfg a z b b')
    (hrests : Rests b' b'') (hopen : b''.closed.length = b'.closed.length) :
    Accrued cfg a z b b'' where
  keys := (hrests.keys hopen).trans h.keys
  rates symbol := by
    rw [← h.rates]
    simp only [rateOf, conversionRate, hrests.conversions]
  carried symbol := (hrests.carried hopen symbol).trans (h.carried symbol)

theorem Accrued.refl (a : ℤ) (b : PaperBroker) : Accrued cfg a a b b where
  keys := rfl
  rates _ := rfl
  carried symbol := by simp

theorem accrued_applyRollover {b b' : PaperBroker} {q : Quote} {tsNs last day : ℤ}
    (h : Financed (fun symbol => ∑ d ∈ Finset.Ioc last day,
      financingOn cfg (quoted cfg b q tsNs) symbol d)
      { quoted cfg b q tsNs with lastRolloverDay := some day } b') :
    Accrued cfg last day b b' := by
  have hframe := quoted_frame cfg b q tsNs
  refine ⟨h.keys.trans (congrArg Dict.keys hframe.1), fun symbol => ?_, fun symbol => ?_⟩
  · exact (h.rateOf_eq symbol).trans (rateOf_quoted cfg b q tsNs symbol)
  · have hsame : financingOn cfg (quoted cfg b q tsNs) symbol = financingOn cfg b symbol := by
      refine financingOn_congr cfg (rateOf_quoted cfg b q tsNs symbol) ?_
      rw [PaperBroker.carried, PaperBroker.carried, hframe.1]
    rw [PaperBroker.carried, PaperBroker.carried, h.positions, hframe.1, Option.map_map,
      Option.map_map, hsame]
    rfl

structure Ticked (cfg : PaperSetup) (last last' : ℤ) (b b' : PaperBroker) : Prop where
  nowNs : b.nowNs ≤ b'.nowNs
  lastRolloverDay : b'.lastRolloverDay = some last'
  last_le : last ≤ last'
  le_day : last' ≤ max last (valueDay b'.nowNs)
  closed : b.closed.length ≤ b'.closed.length
  accrued : b'.closed.length = b.closed.length → Accrued cfg last last' b b'

theorem Ticked.trans {a m z : ℤ} {b b' b'' : PaperBroker} (h : Ticked cfg a m b b')
    (h' : Ticked cfg m z b' b'') : Ticked cfg a z b b'' where
  nowNs := h.nowNs.trans h'.nowNs
  lastRolloverDay := h'.lastRolloverDay
  last_le := h.last_le.trans h'.last_le
  le_day := by
    have hday := valueDay_mono h'.nowNs
    have h1 := h.le_day
    have h2 := h'.le_day
    omega
  closed := h.closed.trans h'.closed
  accrued hopen := by
    have h1 := h.closed
    have h2 := h'.closed
    exact (h.accrued (by omega)).trans h.last_le h'.last_le (h'.accrued (by omega))

theorem ticked_onQuote {b : PaperBroker} {last : ℤ} (hlast : b.lastRolloverDay = some last)
    (hrates : ∀ symbol ∈ b.positions.keys, rateOf cfg b symbol ≠ none)
    (q : Quote) (tsNs : ℤ) (slippagePips : Dec) :
    let b' := finalState (onQuote cfg q tsNs slippagePips) b
    Ticked cfg last (max last (valueDay b'.nowNs)) b b' := by
  obtain ⟨hpositions, hclock, hcursor, hclosed⟩ := quoted_frame cfg b q tsNs
  obtain ⟨rolled, hrun, hrolled⟩ :=
    run_applyRollover cfg (hcursor.trans hlast) fun symbol hkey => by
    rw [rateOf_quoted]
    exact hrates symbol (hpositions ▸ hkey)
  have hrest : Rests rolled (finalState (onQuote cfg q tsNs slippagePips) b) := by
    rw [onQuote_eq, finalState_bind, hrun]
    exact Moves.bind (rests_checkExits cfg q tsNs slippagePips)
      (fun _ => rests_checkMargin cfg) rolled
  have hnow : (finalState (onQuote cfg q tsNs slippagePips) b).nowNs =
      (quoted cfg b q tsNs).nowNs := hrest.nowNs.trans hrolled.nowNs
  have hlength : rolled.closed.length = b.closed.length :=
    congrArg List.length (hrolled.closed.trans hclosed)
  intro b'
  rw [show b'.nowNs = (quoted cfg b q tsNs).nowNs from hnow]
  refine ⟨?_, hrest.lastRolloverDay.trans hrolled.lastRolloverDay, le_max_left _ _, ?_,
    hlength ▸ hrest.closed, fun hopen => ?_⟩
  · rw [show b'.nowNs = max b.nowNs tsNs from hnow.trans hclock]
    exact le_max_left _ _
  · rw [show b'.nowNs = (quoted cfg b q tsNs).nowNs from hnow]
  · exact (accrued_applyRollover hrolled).of_rests hrest (hopen.trans hlength.symm)

theorem ticked_setTime {b : PaperBroker} {last : ℤ} (hlast : b.lastRolloverDay = some last)
    (ns : ℤ) : Ticked cfg last last b (finalState (setTime ns) b) := by
  rw [setTime, finalState_bind_get]
  split_ifs with hback
  · exact ⟨le_rfl, hlast, le_rfl, le_max_left _ _, le_rfl, fun _ => Accrued.refl last b⟩
  · refine ⟨not_lt.mp hback, hlast, le_rfl, le_max_left _ _, le_rfl, fun _ => ⟨rfl, ?_, ?_⟩⟩
    · exact fun _ => rfl
    · intro symbol
      simp [PaperBroker.carried, Function.comp_def]

def Call.MovesClock : Call → Prop
  | .setTime _ => True
  | .onQuote _ _ _ => True
  | _ => False

def Grows (b b' : PaperBroker) : Prop := b.closed.length ≤ b'.closed.length

instance : Std.Refl Grows := ⟨fun _ => le_rfl⟩

instance : IsTrans PaperBroker Grows := ⟨fun _ _ _ => le_trans⟩

theorem grows_charge (multiplier : Dec) (symbol : String) :
    Moves Grows (charge cfg multiplier symbol) := by
  refine Moves.bind_get fun b => ?_
  rcases b.positions.get? symbol with _ | pos
  · exact Std.Refl.refl b
  · rcases cfg.instruments.get? symbol with _ | inst
    · exact Std.Refl.refl b
    · simp only [finalState_bind, run_conv]
      rcases b.conversionRate inst.quote cfg.currency with _ | rate
      · exact Std.Refl.refl b
      · exact le_rfl

theorem grows_applyRollover : Moves Grows (applyRollover cfg) := by
  have hday : ∀ day, Moves (ε := PaperError) Grows
      (modify fun b : PaperBroker => { b with lastRolloverDay := some day }) :=
    fun day t => le_refl t.closed.length
  have hroll : ∀ day, Moves Grows (rollDay cfg day) := fun day => by
    refine Moves.ite (fun _ => ?_) fun _ => Moves.pure _
    refine Moves.bind_get fun b => ?_
    refine Moves.bind (R := Grows) (Moves.forM (grows_charge _) _) (fun _ => ?_) b
    exact fun t => le_refl t.closed.length
  refine Moves.bind_get fun b => ?_
  simp only
  rcases b.lastRolloverDay with _ | last
  · exact hday _ b
  · refine Moves.ite (fun _ => ?_) (fun _ => Moves.pure _) b
    refine Moves.bind (hday _) fun _ => ?_
    exact Moves.ite (fun _ => Moves.pure _) fun _ => Moves.forM hroll _

theorem grows_step (cfg : PaperSetup) {call : Call} (h : call.MovesClock) (b : PaperBroker) :
    Grows b (step cfg b call) := by
  rcases call with ns | _ | ⟨q, tsNs, slippagePips⟩ | _ | _ | _ | _ | _ | _ <;>
    simp only [Call.MovesClock] at h
  · rw [step, setTime, finalState_bind_get]
    split_ifs
    · exact Std.Refl.refl b
    · exact le_rfl
  · have hclosed := (quoted_frame cfg b q tsNs).2.2.2
    have hgrows : Grows (quoted cfg b q tsNs) (step cfg b (.onQuote q tsNs slippagePips)) := by
      rw [step, onQuote_eq]
      refine Moves.bind grows_applyRollover (fun _ => ?_) _
      exact Moves.bind ((rests_checkExits cfg q tsNs slippagePips).mono fun _ _ h => h.closed)
        fun _ => (rests_checkMargin cfg).mono fun _ _ h => h.closed
    rwa [Grows, hclosed] at hgrows

theorem grows_run (cfg : PaperSetup) {feed : List Call}
    (hfeed : ∀ call ∈ feed, call.MovesClock) (b : PaperBroker) :
    Grows b (feed.foldl (step cfg) b) := by
  induction feed generalizing b with
  | nil => exact Std.Refl.refl b
  | cons call feed ih =>
    exact IsTrans.trans b _ _ (grows_step cfg (hfeed call List.mem_cons_self) b)
      (ih (fun c hc => hfeed c (List.mem_cons_of_mem call hc)) _)

theorem ticked_step {call : Call} (h : call.MovesClock) {b : PaperBroker} {last : ℤ}
    (hlast : b.lastRolloverDay = some last)
    (hrates : ∀ symbol ∈ b.positions.keys, rateOf cfg b symbol ≠ none) :
    ∃ last', Ticked cfg last last' b (step cfg b call) := by
  rcases call with ns | _ | ⟨q, tsNs, slippagePips⟩ | _ | _ | _ | _ | _ | _ <;>
    simp only [Call.MovesClock] at h
  · exact ⟨last, ticked_setTime hlast ns⟩
  · exact ⟨_, ticked_onQuote hlast hrates q tsNs slippagePips⟩

theorem ticked_run {feed : List Call} (hfeed : ∀ call ∈ feed, call.MovesClock) {b : PaperBroker}
    {last : ℤ} (hlast : b.lastRolloverDay = some last)
    (hrates : ∀ symbol ∈ b.positions.keys, rateOf cfg b symbol ≠ none)
    (hopen : (feed.foldl (step cfg) b).closed.length = b.closed.length) :
    ∃ last', Ticked cfg last last' b (feed.foldl (step cfg) b) := by
  induction feed generalizing b last with
  | nil =>
    exact ⟨last, le_rfl, hlast, le_rfl, le_max_left _ _, le_rfl, fun _ => Accrued.refl last b⟩
  | cons call feed ih =>
    have hrest : ∀ c ∈ feed, c.MovesClock := fun c hc => hfeed c (List.mem_cons_of_mem call hc)
    obtain ⟨mid, hmid⟩ := ticked_step (hfeed call List.mem_cons_self) hlast hrates
    have hgrows := grows_run cfg hrest (step cfg b call)
    have hfirst := hmid.closed
    rw [List.foldl_cons] at hopen
    have hkept : (step cfg b call).closed.length = b.closed.length := by
      rw [Grows] at hgrows
      omega
    have haccrued := hmid.accrued hkept
    obtain ⟨last', hlast'⟩ := ih hrest hmid.lastRolloverDay
      (fun symbol hkey => by
        rw [haccrued.rates]
        exact hrates symbol (haccrued.keys ▸ hkey))
      (hopen.trans hkept.symm)
    exact ⟨last', hmid.trans hlast'⟩

end Quotes

/-! ## The cursor -/

structure Unquoted (b : PaperBroker) : Prop where
  lastRolloverDay : b.lastRolloverDay = none
  quotes : ∀ symbol, b.quotes.get? symbol = none
  positions : ∀ symbol, b.positions.get? symbol = none

def Started (b : PaperBroker) : Prop := b.lastRolloverDay ≠ none ∨ b.Unquoted

structure Calm (b b' : PaperBroker) : Prop where
  lastRolloverDay : b'.lastRolloverDay = b.lastRolloverDay
  quotes : b'.quotes = b.quotes
  positions : b'.positions = b.positions

instance : Std.Refl Calm := ⟨fun _ => ⟨rfl, rfl, rfl⟩⟩

instance : IsTrans PaperBroker Calm where
  trans _ _ _ h h' :=
    ⟨h'.lastRolloverDay.trans h.lastRolloverDay, h'.quotes.trans h.quotes,
      h'.positions.trans h.positions⟩

theorem Calm.started {b b' : PaperBroker} (h : Calm b b') (hb : Started b) : Started b' := by
  rcases hb with hset | hunquoted
  · exact .inl (h.lastRolloverDay ▸ hset)
  · exact .inr ⟨h.lastRolloverDay.trans hunquoted.lastRolloverDay,
      h.quotes ▸ hunquoted.quotes, h.positions ▸ hunquoted.positions⟩

def SameCursor (b b' : PaperBroker) : Prop := b'.lastRolloverDay = b.lastRolloverDay

instance : Std.Refl SameCursor := ⟨fun _ => rfl⟩

instance : IsTrans PaperBroker SameCursor := ⟨fun _ _ _ h h' => h'.trans h⟩

section Cursor

variable (cfg : PaperSetup)

theorem calm_setTime (ns : ℤ) : Moves Calm (setTime ns) := by
  refine Moves.bind_get fun b => ?_
  refine Moves.ite (R := Calm) (fun _ => Moves.throw _) (fun _ => ?_) b
  exact Moves.modify fun _ => ⟨rfl, rfl, rfl⟩

theorem calm_account : Moves Calm (account cfg) := by
  refine Moves.bind_get fun b => ?_
  rcases b.positions.items.foldlM (b.mark cfg) (0, 0) with e | ⟨unreal, margin⟩
  · exact Std.Refl.refl b
  · exact ⟨rfl, rfl, rfl⟩

theorem calm_queryOrder (clientOrderId : String) : Moves Calm (queryOrder clientOrderId) := by
  refine Moves.bind_get fun b => ?_
  rcases b.orders.get? clientOrderId with _ | order
  · exact Std.Refl.refl b
  · refine Moves.ite_bind (R := Calm) (fun _ => ?_) (fun _ => Moves.pure _) b
    exact Moves.modify fun _ => ⟨rfl, rfl, rfl⟩

theorem calm_cancel (clientOrderId : String) : Moves Calm (cancel clientOrderId) := by
  refine Moves.bind_get fun b => ?_
  rcases b.orders.get? clientOrderId with _ | order
  · exact Std.Refl.refl b
  · refine Moves.ite (R := Calm) (fun _ => Moves.pure _) (fun _ => ?_) b
    refine Moves.bind (Moves.modify fun _ => ⟨rfl, rfl, rfl⟩) fun _ => ?_
    exact Moves.bind (Moves.modify fun _ => ⟨rfl, rfl, rfl⟩) fun _ => Moves.pure _

theorem cursor_realise (symbol : String) (pos : PaperPosition) (inst : Instrument)
    (exitPrice lots : Dec) (tsNs : ℤ) (reason : String) (extraCommission : Dec) :
    Moves SameCursor (realise cfg symbol pos inst exitPrice lots tsNs reason extraCommission) :=
  (rests_realise cfg symbol pos inst exitPrice lots tsNs reason extraCommission).mono
    fun _ _ h => h.lastRolloverDay

variable (intent : OrderIntent) (inst : Instrument)

theorem cursor_applyFill (fill : PaperFill) :
    Moves SameCursor (applyFill cfg intent inst fill) := by
  refine Moves.bind_get fun b => ?_
  rcases b.positions.get? intent.instrument with _ | pos
  · exact rfl
  · refine Moves.ite (R := SameCursor) (fun _ => ?_) (fun _ => ?_) b
    · exact Moves.ite (fun _ => Moves.throw _) fun _ => Moves.modify fun _ => rfl
    · refine Moves.bind (cursor_realise cfg _ _ _ _ _ _ _ _) fun _ => ?_
      exact Moves.ite (fun _ => Moves.modify fun _ => rfl) fun _ => Moves.pure _

theorem cursor_complete (order : Order) (inst : Instrument) (q : Quote) (lots slippagePips : Dec)
    (hidden : Bool) : Moves SameCursor (complete cfg order inst q lots slippagePips hidden) := by
  refine Moves.bind (Moves.modify fun _ => rfl) fun _ => ?_
  refine Moves.bind Moves.get fun b => ?_
  refine Moves.bind (Moves.modify fun _ => rfl) fun _ => ?_
  refine Moves.bind (Moves.modify fun _ => rfl) fun _ => ?_
  refine Moves.bind (cursor_applyFill cfg _ _ _) fun _ => ?_
  exact Moves.bind (Moves.modify fun _ => rfl) fun _ => Moves.pure _

theorem cursor_refusesMargin (q : Quote) (lots : Dec) :
    Moves SameCursor (refusesMargin cfg intent inst q lots) := by
  refine Moves.bind_get fun b => ?_
  simp only
  split
  · refine Moves.bind (R := SameCursor)
      ((calm_account cfg).mono fun _ _ h => h.lastRolloverDay) (fun acct => ?_) b
    refine Moves.ite (fun _ => ?_) fun _ => Moves.pure _
    exact Moves.bind (Moves.modify fun _ => rfl) fun _ => Moves.pure _
  · exact Std.Refl.refl b

theorem cursor_execute (q : Quote)
    (lots timeoutMs : Dec) (draws : Draws) :
    Moves SameCursor (execute cfg intent inst q lots timeoutMs draws) := by
  refine Moves.bind (Moves.modify fun _ => rfl) fun _ => ?_
  refine Moves.ite (fun _ => ?_) fun _ => Moves.ite (fun _ => ?_) fun _ => ?_
  · refine Moves.bind (Moves.modify fun _ => rfl) fun _ => ?_
    exact Moves.bind (cursor_complete cfg _ _ _ _ _ _) fun _ => Moves.pure _
  · refine Moves.bind (Moves.modify fun _ => rfl) fun _ => ?_
    exact Moves.bind (Moves.modify fun _ => rfl) fun _ => Moves.pure _
  · exact Moves.bind (cursor_complete cfg _ _ _ _ _ _) fun _ => Moves.pure _

theorem cursor_submit (timeoutMs : Dec) (draws : Draws) :
    Moves SameCursor (submit cfg intent timeoutMs draws) := by
  refine Moves.bind_get fun b => ?_
  rcases b.orders.get? intent.clientOrderId with _ | existing
  · simp only
    split
    · exact Std.Refl.refl b
    · exact Std.Refl.refl b
    · refine Moves.ite (R := SameCursor) (fun _ => Moves.pure _) (fun _ => ?_) b
      refine Moves.ite (fun _ => Moves.pure _) fun _ => ?_
      refine Moves.bind (cursor_refusesMargin cfg _ _ _ _) fun refusal => ?_
      rcases refusal with _ | refusal
      · exact cursor_execute cfg _ _ _ _ _ _
      · exact Moves.pure _
  · exact Std.Refl.refl b

theorem cursor_closePosition (instrument : String) (lots : Option Dec) (reason : String)
    (slippagePips : Dec) :
    Moves SameCursor (closePosition cfg instrument lots reason slippagePips) := by
  refine Moves.bind_get fun b => ?_
  split
  · exact Std.Refl.refl b
  · exact Std.Refl.refl b
  · rcases cfg.instruments.get? instrument with _ | inst
    · exact Std.Refl.refl b
    · refine Moves.ite (R := SameCursor) (fun _ => Moves.pure _) (fun _ => ?_) b
      refine Moves.bind (cursor_realise cfg _ _ _ _ _ _ _ _) fun _ => ?_
      refine Moves.bind (Moves.modify fun _ => rfl) fun _ => ?_
      exact Moves.bind Moves.get fun _ => Moves.pure _

theorem cursor_modifyPosition (instrument : String) (stopLoss takeProfit : Option Dec) :
    Moves SameCursor (modifyPosition cfg instrument stopLoss takeProfit) := by
  refine Moves.bind_get fun b => ?_
  rcases b.positions.get? instrument with _ | pos
  · exact Std.Refl.refl b
  · rcases cfg.instruments.get? instrument with _ | inst
    · exact Std.Refl.refl b
    · simp only
      split
      · exact Std.Refl.refl b
      · refine Moves.bind (R := SameCursor) ?_ (fun _ => ?_) b
        · exact fun _ => rfl
        · exact Moves.bind (Moves.modify fun _ => rfl) fun _ => Moves.pure _

theorem cursor_charge (multiplier : Dec) (symbol : String) :
    Moves SameCursor (charge cfg multiplier symbol) := by
  refine Moves.bind_get fun b => ?_
  rcases b.positions.get? symbol with _ | pos
  · exact Std.Refl.refl b
  · rcases cfg.instruments.get? symbol with _ | inst
    · exact Std.Refl.refl b
    · simp only [finalState_bind, run_conv]
      rcases b.conversionRate inst.quote cfg.currency with _ | rate
      · exact Std.Refl.refl b
      · exact rfl

theorem cursor_rollDay (day : ℤ) : Moves SameCursor (rollDay cfg day) := by
  refine Moves.ite (fun _ => ?_) fun _ => Moves.pure _
  refine Moves.bind_get fun b => ?_
  refine Moves.bind (R := SameCursor) (Moves.forM (cursor_charge cfg _) _) (fun _ => ?_) b
  exact fun _ => rfl

theorem cursor_applyRollover (b : PaperBroker) :
    (finalState (applyRollover cfg) b).lastRolloverDay =
      some (match b.lastRolloverDay with
        | none => valueDay b.nowNs
        | some last => max last (valueDay b.nowNs)) := by
  rw [applyRollover, finalState_bind_get]
  rcases hlast : b.lastRolloverDay with _ | last
  · rfl
  · simp only
    split_ifs with hnew hempty
    · rw [max_eq_right hnew.le]
      rfl
    · rw [max_eq_right hnew.le]
      exact Moves.forM (R := SameCursor) (cursor_rollDay cfg) _
        { b with lastRolloverDay := some (valueDay b.nowNs) }
    · rw [max_eq_left (not_lt.mp hnew)]
      exact hlast

theorem started_onQuote (b : PaperBroker) (q : Quote) (tsNs : ℤ) (slippagePips : Dec) :
    Started (finalState (onQuote cfg q tsNs slippagePips) b) := by
  have hrest : Rests (finalState (applyRollover cfg) (quoted cfg b q tsNs))
      (finalState (onQuote cfg q tsNs slippagePips) b) := by
    rw [onQuote_eq]
    refine Moves.bind_rest (R := Rests) _ (fun _ => ?_) _
    exact Moves.bind (rests_checkExits cfg q tsNs slippagePips) fun _ => rests_checkMargin cfg
  left
  rw [hrest.lastRolloverDay, cursor_applyRollover]
  exact Option.some_ne_none _

theorem started_step {b : PaperBroker} (h : Started b) (call : Call) :
    Started (step cfg b call) := by
  have hkept : ∀ {b' : PaperBroker}, SameCursor b b' → (Unquoted b → b' = b) → Started b' := by
    intro b' hcursor hsame
    rcases h with hset | hunquoted
    · exact .inl (hcursor ▸ hset)
    · exact .inr (hsame hunquoted ▸ hunquoted)
  rcases call with ns | ⟨quoteCcy, rate⟩ | ⟨q, tsNs, slippagePips⟩ | _ |
    ⟨intent, timeoutMs, draws⟩ | id | id | ⟨instrument, lots, reason, slippagePips⟩ |
    ⟨instrument, stopLoss, takeProfit⟩
  · exact (calm_setTime ns b).started h
  · exact Calm.started (b := b) ⟨rfl, rfl, rfl⟩ h
  · exact started_onQuote cfg b q tsNs slippagePips
  · exact (calm_account cfg b).started h
  · refine hkept (cursor_submit cfg intent timeoutMs draws b) fun hunquoted => ?_
    rw [step, submit, finalState_bind_get]
    rcases b.orders.get? intent.clientOrderId with _ | existing
    · rw [hunquoted.quotes]
      rcases cfg.instruments.get? intent.instrument with _ | inst
      · rfl
      · rfl
    · rfl
  · exact (calm_queryOrder id b).started h
  · exact (calm_cancel id b).started h
  · refine hkept (cursor_closePosition cfg instrument lots reason slippagePips b)
      fun hunquoted => ?_
    rw [step, closePosition, finalState_bind_get, hunquoted.positions]
    rfl
  · refine hkept (cursor_modifyPosition cfg instrument stopLoss takeProfit b) fun hunquoted => ?_
    rw [step, modifyPosition, finalState_bind_get, hunquoted.positions]
    rfl

/-- The venue can come to this state from its start. -/
def Reached (b : PaperBroker) : Prop :=
  ∃ startingBalance startNs calls, b = List.foldl (step cfg) (new cfg startingBalance startNs) calls

theorem started_run (calls : List Call) {b : PaperBroker} (h : Started b) :
    Started (calls.foldl (step cfg) b) := by
  induction calls generalizing b with
  | nil => exact h
  | cons call calls ih => exact ih (started_step cfg h call)

theorem exists_lastRolloverDay {b : PaperBroker} (h : Reached cfg b) {symbol : String}
    {pos : PaperPosition} (hpos : b.positions.get? symbol = some pos) :
    ∃ last, b.lastRolloverDay = some last := by
  obtain ⟨startingBalance, startNs, calls, rfl⟩ := h
  have hnew : Started (new cfg startingBalance startNs) :=
    .inr ⟨rfl, fun _ => rfl, fun _ => rfl⟩
  rcases started_run cfg calls hnew with hset | hunquoted
  · exact Option.ne_none_iff_exists'.mp hset
  · rw [hunquoted.positions] at hpos
    simp at hpos

end Cursor

/-! ## The granularity of the clock -/

section Granularity

variable (cfg : PaperSetup)

/-- Quotes and readings of the clock, a quote last, that close nothing: the clock
goes on in steps of any size. -/
def Advances (b b' : PaperBroker) : Prop :=
  ∃ feed q tsNs slippagePips, (∀ call ∈ feed, Call.MovesClock call) ∧
    b' = List.foldl (step cfg) b (feed ++ [.onQuote q tsNs slippagePips]) ∧
    b'.closed.length = b.closed.length

theorem advances_financing {b b' : PaperBroker} {last : ℤ} (hlast : b.lastRolloverDay = some last)
    (hrates : ∀ symbol ∈ b.positions.keys, rateOf cfg b symbol ≠ none) (h : Advances cfg b b')
    {symbol : String} {pos : PaperPosition} (hpos : b.positions.get? symbol = some pos) :
    ∃ pos', b'.positions.get? symbol = some pos' ∧
      pos'.financingPaid = pos.financingPaid +
        ∑ d ∈ Finset.Ioc last (valueDay b'.nowNs), financingOn cfg b symbol d := by
  obtain ⟨feed, q, tsNs, slippagePips, hfeed, hb', hopen⟩ := h
  rw [List.foldl_append, List.foldl_cons, List.foldl_nil] at hb'
  have hgrows := grows_run cfg hfeed b
  have hquote : (Call.onQuote q tsNs slippagePips).MovesClock := trivial
  have hgrows' := grows_step cfg hquote (feed.foldl (step cfg) b)
  rw [← hb'] at hgrows'
  have hmid : (feed.foldl (step cfg) b).closed.length = b.closed.length := by
    simp only [Grows] at hgrows hgrows'
    omega
  obtain ⟨last', hfed⟩ := ticked_run hfeed hlast hrates hmid
  have haccrued := hfed.accrued hmid
  have hlastly := ticked_onQuote hfed.lastRolloverDay (fun symbol hkey => by
    rw [haccrued.rates]
    exact hrates symbol (haccrued.keys ▸ hkey)) q tsNs slippagePips
  have hb'' : finalState (onQuote cfg q tsNs slippagePips) (feed.foldl (step cfg) b) = b' :=
    hb'.symm
  rw [hb''] at hlastly
  have hwhole := hfed.trans hlastly
  have hcarried := (hwhole.accrued hopen).carried symbol
  have hdays : Finset.Ioc last (max last' (valueDay b'.nowNs)) =
      Finset.Ioc last (valueDay b'.nowNs) := by
    ext d
    have hday := valueDay_mono hlastly.nowNs
    have hle := hfed.le_day
    simp only [Finset.mem_Ioc]
    omega
  rw [hdays] at hcarried
  rcases hpos' : b'.positions.get? symbol with _ | pos'
  · simp [carried, hpos, hpos'] at hcarried
  · simp only [carried, hpos, hpos', Option.map_some, Option.some.injEq, Prod.mk.injEq] at hcarried
    exact ⟨pos', rfl, hcarried.2.2⟩

/-- However the clock gets from one value to another, each position is charged
for every value date in between once, at the multiplier of its weekday: a long
jump and a series of small steps charge the same. -/
theorem financing_granularity {b : PaperBroker} (hreached : Reached cfg b)
    (hrates : ∀ symbol ∈ b.positions.keys, rateOf cfg b symbol ≠ none) :
    (∀ b', Advances cfg b b' → ∀ symbol pos, b.positions.get? symbol = some pos →
      ∃ last ∈ b.lastRolloverDay, ∃ pos' ∈ b'.positions.get? symbol,
        pos'.financingPaid = pos.financingPaid +
          ∑ d ∈ Finset.Ioc last (valueDay b'.nowNs), financingOn cfg b symbol d) ∧
    ∀ b' b'', Advances cfg b b' → Advances cfg b b'' → b'.nowNs = b''.nowNs →
      ∀ symbol pos, b.positions.get? symbol = some pos →
        (b'.positions.get? symbol).map PaperPosition.financingPaid =
          (b''.positions.get? symbol).map PaperPosition.financingPaid := by
  constructor
  · intro b' h symbol pos hpos
    obtain ⟨last, hlast⟩ := exists_lastRolloverDay cfg hreached hpos
    obtain ⟨pos', hpos', hfinancing⟩ := advances_financing cfg hlast hrates h hpos
    exact ⟨last, hlast, pos', hpos', hfinancing⟩
  · intro b' b'' h h' hclock symbol pos hpos
    obtain ⟨last, hlast⟩ := exists_lastRolloverDay cfg hreached hpos
    obtain ⟨pos', hpos', hfinancing'⟩ := advances_financing cfg hlast hrates h hpos
    obtain ⟨pos'', hpos'', hfinancing''⟩ := advances_financing cfg hlast hrates h' hpos
    simp only [hpos', hpos'', Option.map_some, hfinancing', hfinancing'', hclock]

theorem sterlingBid_le : (86 / 100 : Dec) ≤ 8601 / 10000 := by norm_num

def sterlingBook : PaperBroker :=
  [Call.setConversion "GBP" (5 / 4),
    .onQuote
      { instrument := "EUR_GBP", bid := 86 / 100, ask := 8601 / 10000
        bid_le_ask := sterlingBid_le } 0 0,
    .submit (sterlingOrder "in" .buy) 5000 ⟨85, false, 0⟩].foldl (step sterlingVenue)
    (new sterlingVenue 10000 0)

/-- Eight days in one step and in two: one Wednesday among them. -/
theorem financing_granularity_sterling :
    let q : Quote := { instrument := "EUR_GBP", bid := 86 / 100, ask := 8601 / 10000 }
    let once := step sterlingVenue sterlingBook (.onQuote q (8 * dayNs) 0)
    let twice := step sterlingVenue
      (step sterlingVenue sterlingBook (.onQuote q (3 * dayNs) 0)) (.onQuote q (8 * dayNs) 0)
    (once.positions.get? "EUR_GBP").map PaperPosition.financingPaid =
      (twice.positions.get? "EUR_GBP").map PaperPosition.financingPaid := by
  intro q once twice
  have hrates : ∀ symbol ∈ sterlingBook.positions.keys,
      rateOf sterlingVenue sterlingBook symbol ≠ none := by decide +kernel
  have hreached : Reached sterlingVenue sterlingBook := ⟨10000, 0, _, rfl⟩
  have honce : Advances sterlingVenue sterlingBook once :=
    ⟨[], q, 8 * dayNs, 0, by simp, rfl, by decide +kernel⟩
  have htwice : Advances sterlingVenue sterlingBook twice :=
    ⟨[.onQuote q (3 * dayNs) 0], q, 8 * dayNs, 0, by simp [Call.MovesClock], rfl,
      by decide +kernel⟩
  obtain ⟨pos, hpos⟩ : ∃ pos, sterlingBook.positions.get? "EUR_GBP" = some pos :=
    Option.isSome_iff_exists.mp (by decide +kernel)
  exact (financing_granularity sterlingVenue hreached hrates).2 once twice honce htwice
    (by decide +kernel) "EUR_GBP" pos hpos

end Granularity

end PaperBroker

end Sentinel
