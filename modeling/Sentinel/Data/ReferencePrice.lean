import Sentinel.Core.Money

/-!
# The reference price

The quotes of the reference stream, merged from partial blocks, and the guard that compares
the broker's price with them.  A quote has one stamp for all of its prices.
-/

namespace Sentinel.Reference

/-! ## Quotes -/

structure Raw where
  number : Option ℚ := none
  text : String := ""

def price (value : Raw) : Option ℚ := value.number.filter (0 < ·)

/-- A `qsd` value block. -/
abbrev Values := String → Option Raw

inductive PriceField where
  | last | bid | ask | openPrice | high | low | prevClose
  deriving DecidableEq

namespace PriceField

def key : PriceField → String
  | last => "lp"
  | bid => "bid"
  | ask => "ask"
  | openPrice => "open_price"
  | high => "high_price"
  | low => "low_price"
  | prevClose => "prev_close_price"

end PriceField

def watched : List PriceField := [.last, .bid, .ask]

def textMapping : List (String × String) :=
  [("description", "description"), ("exchange", "exchange"), ("type", "kind"),
    ("update_mode", "update_mode"), ("current_session", "session"), ("status", "status")]

structure TVQuote where
  prices : PriceField → Option ℚ := fun _ => none
  lastTime : Option ℤ := none
  change : Option ℚ := none
  changePct : Option ℚ := none
  texts : String → String := fun _ => ""
  error : String := ""
  receivedNs : ℤ := 0
  priceNs : ℤ := 0

namespace TVQuote

def stamp (q : TVQuote) : ℤ := if q.priceNs ≠ 0 then q.priceNs else q.receivedNs

def delayed (q : TVQuote) : Bool :=
  decide ("delayed".toList <:+: (q.texts "update_mode").toLower.toList)

def mid (q : TVQuote) : Option ℚ :=
  match q.prices .bid, q.prices .ask with
  | some bid, some ask => if bid ≤ ask then some ((bid + ask) / 2) else q.prices .last
  | _, _ => q.prices .last

def dropCrossed (q : TVQuote) : TVQuote :=
  match q.prices .bid, q.prices .ask with
  | some bid, some ask =>
    if ask < bid then
      { q with prices := Function.update (Function.update q.prices .bid none) .ask none }
    else q
  | _, _ => q

end TVQuote

def delivered (values : Values) (f : PriceField) : Option ℚ := (values f.key).bind price

def Moves (q : TVQuote) (values : Values) : Prop :=
  ∃ f ∈ watched, (delivered values f).any fun p => q.prices f ≠ some p

instance (q : TVQuote) (values : Values) : Decidable (Moves q values) :=
  inferInstanceAs (Decidable (∃ f ∈ watched, _))

def setText (values : Values) (texts : String → String) (name : String × String) :
    String → String :=
  Function.update texts name.2 (((values name.1).map Raw.text).getD (texts name.2))

def applyQuoteUpdate (q : TVQuote) (values : Values) (nowNs : ℤ) : TVQuote × Bool :=
  let moved := decide (Moves q values)
  -- the loop over the prices writes each of them by itself
  let q := { q with prices := fun f => (delivered values f).or (q.prices f) }.dropCrossed
  ({ q with
      texts := textMapping.foldl (setText values) q.texts
      lastTime := ((values "lp_time").bind fun v =>
        (v.number.filter fun t => 0 < t ∧ t < 32503680000).map Int.floor).or q.lastTime
      change := ((values "ch").map Raw.number).getD q.change
      changePct := ((values "chp").map Raw.number).getD q.changePct
      receivedNs := nowNs
      priceNs := if moved then nowNs else q.priceNs }, moved)

/-! ## The stream -/

structure Update where
  values : Values
  nowNs : ℤ
  pos : 0 < nowNs

/-- What changes the quotes: a block of a symbol, or other symbols that are wanted. -/
inductive Event where
  | values (symbol : String) (u : Update)
  | error (symbol : String) (reason : String)
  | setSymbols (clean : List String)

structure Stream where
  wanted : List String := []
  quotes : String → Option TVQuote := fun _ => none

namespace Stream

def setQuote (s : Stream) (symbol : String) (f : TVQuote → TVQuote) : Stream :=
  if symbol ∈ s.wanted then
    { s with quotes := Function.update s.quotes symbol (some (f ((s.quotes symbol).getD {}))) }
  else s

/-- `_handle` of a block, and `set_symbols`. -/
def handle (s : Stream) : Event → Stream
  | .values symbol u =>
    s.setQuote symbol fun q => (applyQuoteUpdate { q with error := "" } u.values u.nowNs).1
  | .error symbol reason => s.setQuote symbol fun q => { q with error := reason }
  | .setSymbols clean =>
    { wanted := clean, quotes := fun symbol => if symbol ∈ clean then s.quotes symbol else none }

def run (events : List Event) : Stream := events.foldl handle {}

end Stream

/-! ### What has been delivered -/

def receive (symbol : String) (got : Option (List Update)) : Event → Option (List Update)
  | .values s u => if s = symbol then got.map (· ++ [u]) else got
  | .error _ _ => got
  | .setSymbols clean => if symbol ∈ clean then some (got.getD []) else none

/-- The symbol's blocks, the last one last, since it was last added to the wanted
ones; `none` while it is not among them. -/
def received (symbol : String) (events : List Event) : Option (List Update) :=
  events.foldl (receive symbol) none

def updates (symbol : String) (events : List Event) : List Update :=
  (received symbol events).getD []

/-! ## The guard -/

structure ReferenceConfig where
  shrinkBp : ℚ := 5
  blockBp : ℚ := 12
  spreadMultipleShrink : ℚ := 2
  spreadMultipleBlock : ℚ := 4
  shrinkMultiplier : ℚ := 1 / 2
  maxAgeSec : ℕ := 90

structure BrokerQuote where
  bid : Option ℚ
  ask : Option ℚ
  receivedNs : ℤ := 0

inductive Status where
  | ok | shrink | block | stale | delayed | closed | unavailable | unmapped | noBrokerQuote
  deriving DecidableEq

structure ReferenceCheck where
  status : Status
  brokerMid : Option ℚ := none
  referenceMid : Option ℚ := none
  divergenceBp : Option ℚ := none
  shrinkAtBp : Option ℚ := none
  blockAtBp : Option ℚ := none
  sizeMultiplier : ℚ := 1

def ReferenceCheck.active (c : ReferenceCheck) : Prop := c.status ∈ [.ok, .shrink, .block]

instance (c : ReferenceCheck) : Decidable c.active := inferInstanceAs (Decidable (_ ∈ _))

namespace ReferenceConfig

variable (cfg : ReferenceConfig)

def tooOld (nowNs stamp : ℤ) : Prop := cfg.maxAgeSec * 10 ^ 9 < nowNs - stamp

instance (nowNs stamp : ℤ) : Decidable (cfg.tooOld nowNs stamp) :=
  inferInstanceAs (Decidable (_ < _))

def compare (nowNs : ℤ) (mid : ℚ) (quote : Option BrokerQuote) : ReferenceCheck :=
  let refused : ReferenceCheck := { status := .noBrokerQuote, referenceMid := some mid }
  match quote with
  | some ⟨some bid, some ask, receivedNs⟩ =>
    if receivedNs ≠ 0 ∧ cfg.tooOld nowNs receivedNs then refused
    else if bid ≤ 0 ∨ ask ≤ 0 ∨ ask < bid then refused
    else
      let broker := (bid + ask) / 2
      let divergence := |broker - mid| / mid * 10000
      let spread := (ask - bid) / broker * 10000
      let shrinkAt := quantize (max cfg.shrinkBp (cfg.spreadMultipleShrink * spread)) (1 / 1000)
      let blockAt := quantize (max cfg.blockBp (cfg.spreadMultipleBlock * spread)) (1 / 1000)
      let c : ReferenceCheck :=
        { status := .ok
          brokerMid := some broker
          referenceMid := some mid
          divergenceBp := some (quantize divergence (1 / 1000))
          shrinkAtBp := some shrinkAt
          blockAtBp := some blockAt }
      if blockAt < divergence then { c with status := .block, sizeMultiplier := 0 }
      else if shrinkAt < divergence then
        { c with status := .shrink, sizeMultiplier := cfg.shrinkMultiplier }
      else c
  | _ => refused

/-- `_check_one`, for the symbol of an instrument. -/
def checkOne (stream : Stream) (nowNs : ℤ) (symbol : Option String)
    (quote : Option BrokerQuote) : ReferenceCheck :=
  match symbol with
  | none => { status := .unmapped }
  | some symbol =>
    match stream.quotes symbol with
    | none => { status := .unavailable }
    | some ref =>
      match ref.mid with
      | none => { status := .unavailable }
      | some mid =>
        if ref.delayed then { status := .delayed, referenceMid := some mid }
        else if ref.texts "session" ∉ ["", "market"] then
          { status := .closed, referenceMid := some mid }
        else if ref.stamp = 0 ∨ cfg.tooOld nowNs ref.stamp then
          { status := .stale, referenceMid := some mid }
        else cfg.compare nowNs mid quote

end ReferenceConfig

/-! ## What a quote is made of -/

inductive Made : List Update → TVQuote → Prop where
  | fresh : Made [] {}
  | marked {us : List Update} {q : TVQuote} (h : Made us q) (error : String) :
      Made us { q with error }
  | merged {us : List Update} {q : TVQuote} (h : Made us q) (u : Update) :
      Made (us ++ [u]) (applyQuoteUpdate q u.values u.nowNs).1

def lastDelivered (us : List Update) (f : PriceField) : Option ℚ :=
  us.foldl (fun found u => (delivered u.values f).or found) none

@[simp] theorem lastDelivered_concat (us : List Update) (u : Update) (f : PriceField) :
    lastDelivered (us ++ [u]) f = (delivered u.values f).or (lastDelivered us f) := by
  rw [lastDelivered, List.foldl_append]
  rfl

theorem TVQuote.dropCrossed_priceNs (q : TVQuote) : q.dropCrossed.priceNs = q.priceNs := by
  rw [dropCrossed]
  split
  · split <;> rfl
  · rfl

theorem TVQuote.dropCrossed_spec (q : TVQuote) :
    (∀ f p, q.dropCrossed.prices f = some p → q.prices f = some p) ∧
      ∀ bid ask, q.dropCrossed.prices .bid = some bid → q.dropCrossed.prices .ask = some ask →
        bid ≤ ask := by
  rw [dropCrossed]
  split
  · rename_i bid ask hbid hask
    split_ifs with hcrossed
    · constructor
      · intro f p hf
        rcases f with _ | _ | _ <;> simp_all
      · intro _ _ h
        simp at h
    · refine ⟨fun f p hf => hf, fun b a hb ha => ?_⟩
      rw [hbid] at hb
      rw [hask] at ha
      rw [← Option.some.inj hb, ← Option.some.inj ha]
      exact not_lt.mp hcrossed
  · rename_i hnone
    exact ⟨fun f p hf => hf, fun b a hb ha => (hnone b a hb ha).elim⟩

structure Kept (us : List Update) (q : TVQuote) : Prop where
  latest : ∀ f p, q.prices f = some p → lastDelivered us f = some p
  uncrossed : ∀ bid ask, q.prices .bid = some bid → q.prices .ask = some ask → bid ≤ ask
  stamp : q.priceNs ≠ 0 → ∃ before u after before', us = before ++ u :: after ∧
    u.nowNs = q.priceNs ∧ Made before before' ∧ Moves before' u.values
  unset : q.priceNs = 0 → ∀ f ∈ watched, q.prices f = none

theorem Made.kept {us : List Update} {q : TVQuote} (h : Made us q) : Kept us q := by
  induction h with
  | fresh => exact ⟨nofun, nofun, fun h => absurd rfl h, fun _ _ _ => rfl⟩
  | marked _ _ ih => exact ⟨ih.latest, ih.uncrossed, ih.stamp, ih.unset⟩
  | @merged us q h u ih =>
    obtain ⟨hkeeps, huncrossed⟩ := TVQuote.dropCrossed_spec
      { q with prices := fun f => (delivered u.values f).or (q.prices f) }
    refine ⟨fun f p hf => ?_, huncrossed, fun hne => ?_, fun hzero f hf => ?_⟩
    · rw [lastDelivered_concat]
      rcases Option.or_eq_some_iff.mp (hkeeps f p hf) with hd | ⟨hd, hold⟩
      · rw [hd, Option.some_or]
      · rw [hd, Option.none_or, ih.latest f p hold]
    · by_cases hmoves : Moves q u.values
      · refine ⟨us, u, [], q, rfl, ?_, h, hmoves⟩
        simp [applyQuoteUpdate, hmoves]
      · simp only [applyQuoteUpdate, hmoves, TVQuote.dropCrossed_priceNs] at hne ⊢
        obtain ⟨before, v, after, q', rfl, hat, hmade, hv⟩ := ih.stamp (by simpa using hne)
        exact ⟨before, v, after ++ [u], q', by simp, by simpa using hat, hmade, hv⟩
    · by_cases hmoves : Moves q u.values
      · simp [applyQuoteUpdate, hmoves, u.pos.ne'] at hzero
      · simp only [applyQuoteUpdate, hmoves, TVQuote.dropCrossed_priceNs] at hzero
        have hold := ih.unset (by simpa using hzero) f hf
        rw [Option.eq_none_iff_forall_ne_some]
        intro p hp
        rcases Option.or_eq_some_iff.mp (hkeeps f p hp) with hd | ⟨-, hold'⟩
        · exact hmoves ⟨f, hf, by simp [hd, hold]⟩
        · rw [hold] at hold'
          cases hold'

namespace Stream

theorem received_concat (symbol : String) (events : List Event) (e : Event) :
    received symbol (events ++ [e]) = receive symbol (received symbol events) e := by
  rw [received, List.foldl_append]
  rfl

theorem run_concat (events : List Event) (e : Event) :
    run (events ++ [e]) = (run events).handle e := by
  rw [run, List.foldl_append]
  rfl

theorem setQuote_wanted (s : Stream) (symbol : String) (f : TVQuote → TVQuote) :
    (s.setQuote symbol f).wanted = s.wanted := by
  rw [setQuote]
  split <;> rfl

theorem setQuote_of_ne {s : Stream} {symbol symbol' : String} (h : symbol' ≠ symbol)
    (f : TVQuote → TVQuote) : (s.setQuote symbol' f).quotes symbol = s.quotes symbol := by
  rw [setQuote]
  split
  · exact Function.update_of_ne (Ne.symm h) _ _
  · rfl

theorem setQuote_of_mem {s : Stream} {symbol : String} (h : symbol ∈ s.wanted)
    (f : TVQuote → TVQuote) :
    (s.setQuote symbol f).quotes symbol = some (f ((s.quotes symbol).getD {})) := by
  rw [setQuote, if_pos h]
  exact Function.update_self _ _ _

theorem setQuote_of_notMem {s : Stream} {symbol : String} (h : symbol ∉ s.wanted)
    (f : TVQuote → TVQuote) : s.setQuote symbol f = s := by
  rw [setQuote, if_neg h]

structure Holds (s : Stream) (symbol : String) (got : Option (List Update)) : Prop where
  wanted : symbol ∈ s.wanted ↔ got.isSome
  made : Made (got.getD []) ((s.quotes symbol).getD {})
  unwanted : got = none → s.quotes symbol = none

theorem holds_run (events : List Event) (symbol : String) :
    Holds (run events) symbol (received symbol events) := by
  induction events using List.reverseRecOn with
  | nil => exact ⟨by simp [run, received], .fresh, fun _ => rfl⟩
  | append_singleton events e ih =>
    rw [run_concat, received_concat]
    rcases e with ⟨s, u⟩ | ⟨s, reason⟩ | clean
    · rw [receive]
      by_cases hs : s = symbol
      · subst hs
        rw [if_pos rfl]
        rcases hgot : received s events with - | us
        · rw [hgot] at ih
          have hout : s ∉ (run events).wanted := by simp [ih.wanted]
          rw [handle, setQuote_of_notMem hout]
          exact ih
        · rw [hgot] at ih
          have hin : s ∈ (run events).wanted := by simp [ih.wanted]
          refine ⟨?_, ?_, nofun⟩
          · rw [handle, setQuote_wanted]
            simp [hin]
          · rw [handle, setQuote_of_mem hin]
            exact (ih.made.marked "").merged u
      · rw [if_neg hs]
        refine ⟨?_, ?_, ?_⟩
        · rw [handle, setQuote_wanted]
          exact ih.wanted
        · rw [handle, setQuote_of_ne hs]
          exact ih.made
        · rw [handle, setQuote_of_ne hs]
          exact ih.unwanted
    · rw [receive, handle]
      by_cases hs : s = symbol
      · subst hs
        by_cases hin : s ∈ (run events).wanted
        · refine ⟨?_, ?_, ?_⟩
          · rw [setQuote_wanted]
            exact ih.wanted
          · rw [setQuote_of_mem hin]
            exact ih.made.marked reason
          · intro hnone
            rw [ih.wanted, hnone] at hin
            cases hin
        · rw [setQuote_of_notMem hin]
          exact ih
      · refine ⟨?_, ?_, ?_⟩
        · rw [setQuote_wanted]
          exact ih.wanted
        · rw [setQuote_of_ne hs]
          exact ih.made
        · rw [setQuote_of_ne hs]
          exact ih.unwanted
    · rw [receive]
      by_cases hin : symbol ∈ clean
      · rw [if_pos hin]
        refine ⟨by simp [handle, hin], ?_, nofun⟩
        simp only [handle, if_pos hin, Option.getD_some]
        exact ih.made
      · rw [if_neg hin]
        refine ⟨by simp [handle, hin], ?_, ?_⟩
        · simp only [handle, if_neg hin, Option.getD_none]
          exact .fresh
        · intro _
          simp only [handle, if_neg hin]

theorem made_of_run {events : List Event} {symbol : String} {q : TVQuote}
    (hq : (run events).quotes symbol = some q) : Made (updates symbol events) q := by
  have hmade := (holds_run events symbol).made
  rwa [hq] at hmade

end Stream

/-! ## Judging -/

def MidOf (of : PriceField → ℚ → Prop) (mid : ℚ) : Prop :=
  (∃ bid ask, of .bid bid ∧ of .ask ask ∧ bid ≤ ask ∧ mid = (bid + ask) / 2) ∨ of .last mid

theorem TVQuote.mid_spec {q : TVQuote} {mid : ℚ} (h : q.mid = some mid) :
    MidOf (fun f p => q.prices f = some p) mid := by
  rw [TVQuote.mid] at h
  split at h
  · rename_i bid ask hbid hask
    split_ifs at h with hle
    · exact Or.inl ⟨bid, ask, hbid, hask, hle, (Option.some.inj h).symm⟩
    · exact Or.inr h
  · exact Or.inr h

namespace ReferenceConfig

variable (cfg : ReferenceConfig)

theorem referenceMid_compare (nowNs : ℤ) (mid : ℚ) (quote : Option BrokerQuote) :
    (cfg.compare nowNs mid quote).referenceMid = some mid := by
  unfold compare
  split
  · dsimp only
    split_ifs <;> rfl
  · rfl

theorem judged {stream : Stream} {nowNs : ℤ} {symbol : Option String}
    {quote : Option BrokerQuote} (h : (cfg.checkOne stream nowNs symbol quote).active) :
    ∃ s q mid, symbol = some s ∧ stream.quotes s = some q ∧ q.mid = some mid ∧
      (cfg.checkOne stream nowNs symbol quote).referenceMid = some mid ∧
      ¬ cfg.tooOld nowNs q.stamp := by
  rcases symbol with _ | s
  · exact absurd h (by simp [checkOne, ReferenceCheck.active])
  · rw [checkOne] at h ⊢
    rcases hq : stream.quotes s with _ | q
    · rw [hq] at h
      exact absurd h (by simp [ReferenceCheck.active])
    · rw [hq] at h
      rcases hmid : q.mid with _ | mid
      · simp [hmid, ReferenceCheck.active] at h
      · simp only [hmid] at h ⊢
        split_ifs at h ⊢ with hdelayed hclosed hold
        · exact absurd h (by simp [ReferenceCheck.active])
        · exact absurd h (by simp [ReferenceCheck.active])
        · exact ⟨s, q, mid, rfl, hq, hmid, cfg.referenceMid_compare nowNs mid quote,
            (not_or.mp hold).2⟩
        · exact absurd h (by simp [ReferenceCheck.active])

/-- Judged by the mid of a book that is not crossed or by the last price, each the latest
that was delivered since the symbol was last added, after a change of a price that is
not too old. -/
def JudgedOn (events : List Event) (nowNs : ℤ) (symbol : Option String)
    (quote : Option BrokerQuote) : Prop :=
  ∃ s mid, symbol = some s ∧
    (cfg.checkOne (Stream.run events) nowNs symbol quote).referenceMid = some mid ∧
    MidOf (fun f p => lastDelivered (updates s events) f = some p) mid ∧
    ∃ before u after q, updates s events = before ++ u :: after ∧
      ¬ cfg.tooOld nowNs u.nowNs ∧ Made before q ∧ Moves q u.values

/-- In every run of the stream, whatever is judged is. -/
theorem judged_run (events : List Event) (nowNs : ℤ) (symbol : Option String)
    (quote : Option BrokerQuote)
    (h : (cfg.checkOne (Stream.run events) nowNs symbol quote).active) :
    cfg.JudgedOn events nowNs symbol quote := by
  obtain ⟨s, q, mid, hs, hq, hmid, href, hfresh⟩ := cfg.judged h
  have hkept := (Stream.made_of_run hq).kept
  have hof := TVQuote.mid_spec hmid
  have hset : q.priceNs ≠ 0 := by
    intro hzero
    have hunset := hkept.unset hzero
    rcases hof with ⟨bid, -, hbid, -⟩ | hlast
    · exact absurd hbid (by simp [hunset .bid (by decide)])
    · exact absurd hlast (by simp [hunset .last (by decide)])
  obtain ⟨before, u, after, q', hsplit, hat, hbefore, hmoves⟩ := hkept.stamp hset
  rw [TVQuote.stamp, if_pos hset, ← hat] at hfresh
  refine ⟨s, mid, hs, href, ?_, before, u, after, q', hsplit, hfresh, hbefore, hmoves⟩
  rcases hof with ⟨bid, ask, hbid, hask, hle⟩ | hlast
  · exact Or.inl ⟨bid, ask, hkept.latest _ _ hbid, hkept.latest _ _ hask, hle⟩
  · exact Or.inr (hkept.latest _ _ hlast)

end ReferenceConfig

/-! ## A side that is not delivered again -/

def oneSided : List Event :=
  let number (p : ℚ) : Raw := { number := some p }
  [.setSymbols ["OANDA:EURUSD"],
    .values "OANDA:EURUSD"
      ⟨fun k => if k = "bid" then number 1 else if k = "ask" then number (11 / 10) else none,
        1, by decide⟩,
    .values "OANDA:EURUSD"
      ⟨fun k => if k = "ask" then number (12 / 10) else none, 100 * 10 ^ 9, by decide⟩]

theorem judged_oneSided :
    (ReferenceConfig.checkOne {} (Stream.run oneSided) (100 * 10 ^ 9) (some "OANDA:EURUSD")
      (some { bid := some 1, ask := some (11 / 10) })).active := by
  decide +kernel

theorem judged_run_oneSided :
    ReferenceConfig.JudgedOn {} oneSided (100 * 10 ^ 9) (some "OANDA:EURUSD")
      (some { bid := some 1, ask := some (11 / 10) }) :=
  ReferenceConfig.judged_run {} oneSided _ _ _ judged_oneSided

/-- Not every component of the mid has been delivered by an update that is not too old. -/
theorem not_delivered_oneSided :
    ¬ ∀ (cfg : ReferenceConfig) (events : List Event) (nowNs : ℤ) (s : String)
      (quote : Option BrokerQuote),
      (cfg.checkOne (Stream.run events) nowNs (some s) quote).active →
        ∃ mid, (cfg.checkOne (Stream.run events) nowNs (some s) quote).referenceMid = some mid ∧
          MidOf (fun f p => ∃ u ∈ updates s events, ¬ cfg.tooOld nowNs u.nowNs ∧
            delivered u.values f = some p) mid := by
  intro h
  have hnone : ∀ u ∈ updates "OANDA:EURUSD" oneSided,
      ¬ ReferenceConfig.tooOld {} (100 * 10 ^ 9) u.nowNs →
        delivered u.values .bid = none ∧ delivered u.values .last = none := by
    decide +kernel
  obtain ⟨mid, -, ⟨bid, -, ⟨u, hu, hfresh, hd⟩, -⟩ | ⟨u, hu, hfresh, hd⟩⟩ :=
    h {} oneSided (100 * 10 ^ 9) "OANDA:EURUSD" _ judged_oneSided
  · rw [(hnone u hu hfresh).1] at hd
    cases hd
  · rw [(hnone u hu hfresh).2] at hd
    cases hd

end Sentinel.Reference
