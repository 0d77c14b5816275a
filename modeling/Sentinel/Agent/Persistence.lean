import Sentinel.Agent.State

/-!
# The state file

`_save_state` writes the counters and the position entries, and `_load_state`
reads them back after a restart.  A decimal is written as its text; the model
keeps the number a text prints, and a text that is no number as it is.  The
encoding of the whole payload as JSON is not part of the model.
-/

namespace Sentinel

inductive NumberText where
  | number (value : Dec)
  | other (text : String)
  deriving DecidableEq

/-- An exception of `_load_state`. -/
inductive LoadError where
  /-- `dec` of a text that is no number -/
  | notDecimal (text : String)
  /-- `int` of a text that is no whole number -/
  | notInteger
  deriving DecidableEq

/-- `dec(text)`. -/
def NumberText.dec : NumberText → Except LoadError Dec
  | .number value => .ok value
  | .other text => .error (.notDecimal text)

/-- `dec(text or 0)`. -/
def NumberText.decOrZero : NumberText → Except LoadError Dec
  | .number value => .ok value
  | .other text => if text = "" then .ok 0 else .error (.notDecimal text)

/-- `int(text or 0)`. -/
def NumberText.intOrZero : NumberText → Except LoadError ℤ
  | .number value => if value.den = 1 then .ok value.num else .error .notInteger
  | .other text => if text = "" then .ok 0 else .error .notInteger

/-- `int(float(text or 0))`, without the rounding of a float. -/
def NumberText.truncated : NumberText → Except LoadError ℤ
  | .number value => .ok (if 0 ≤ value then ⌊value⌋ else ⌈value⌉)
  | .other text => if text = "" then .ok 0 else .error .notInteger

/-- An entry of `position_meta` in the file: `{kk: str(vv)}`. -/
structure SavedMeta where
  initialRisk : Option NumberText := none
  intendedRisk : Option NumberText := none
  strategy : Option String := none
  side : Option String := none
  lots : Option NumberText := none
  entryPrice : Option NumberText := none
  stopLoss : Option NumberText := none
  clientOrderId : Option String := none
  openedNs : Option NumberText := none
  regime : Option String := none
  maxHoldSec : Option NumberText := none
  provisional : Option String := none
  partialTaken : Option String := none
  breakevenMoved : Option String := none
  maxFavourable : Option NumberText := none
  maxAdverse : Option NumberText := none
  deriving DecidableEq

/-- `str` of a boolean. -/
def boolText (b : Bool) : String := if b then "True" else "False"

/-- `text == "True"`. -/
def readFlag (text : Option String) : Bool := decide (text = some "True")

/-- `str` of a price or `None`. -/
def priceText : Option Dec → NumberText
  | none => .other "None"
  | some price => .number price

namespace PositionMeta

/-- `{kk: str(vv) for kk, vv in v.items()}`. -/
def save (m : PositionMeta) : SavedMeta where
  initialRisk := m.initialRisk.map .number
  intendedRisk := m.intendedRisk.map .number
  strategy := m.strategy
  side := m.side
  lots := m.lots.map .number
  entryPrice := m.entryPrice.map .number
  stopLoss := m.stopLoss.map priceText
  clientOrderId := m.clientOrderId
  openedNs := m.openedNs.map fun n => .number n
  regime := m.regime
  maxHoldSec := m.maxHoldSec.map fun n => .number n
  provisional := m.provisional.map boolText
  partialTaken := m.partialTaken.map boolText
  breakevenMoved := m.breakevenMoved.map boolText
  maxFavourable := m.maxFavourable.map .number
  maxAdverse := m.maxAdverse.map .number

end PositionMeta

namespace SavedMeta

/-- `dec(meta["stop_loss"]) if meta.get("stop_loss") not in (None, "", "None")
else None`. -/
def readStop (s : SavedMeta) : Except LoadError (Option Dec) :=
  match s.stopLoss with
  | none => .ok none
  | some (.number price) => .ok (some price)
  | some (.other text) =>
      if text = "" ∨ text = "None" then .ok none else .error (.notDecimal text)

/-- The entry `_load_state` makes: every key is present. -/
def load (s : SavedMeta) : Except LoadError PositionMeta := do
  let initialRisk ← (s.initialRisk.getD (.number 0)).dec
  let openedNs ← (s.openedNs.getD (.number 0)).intOrZero
  let lots ← (s.lots.getD (.number 0)).decOrZero
  let entryPrice ← (s.entryPrice.getD (.number 0)).decOrZero
  let stopLoss ← s.readStop
  let maxFavourable ← (s.maxFavourable.getD (.number 0)).decOrZero
  let maxAdverse ← (s.maxAdverse.getD (.number 0)).decOrZero
  let maxHoldSec ← (s.maxHoldSec.getD (.number 0)).truncated
  let intendedRisk ← (s.intendedRisk.getD (.number 0)).decOrZero
  pure
    { initialRisk := some initialRisk
      strategy := some (s.strategy.getD "")
      openedNs := some openedNs
      side := some (s.side.getD "")
      clientOrderId := some (s.clientOrderId.getD "")
      regime := some (s.regime.getD "")
      provisional := some (readFlag s.provisional)
      partialTaken := some (readFlag s.partialTaken)
      breakevenMoved := some (readFlag s.breakevenMoved)
      lots := some lots
      entryPrice := some entryPrice
      stopLoss := some stopLoss
      maxFavourable := some maxFavourable
      maxAdverse := some maxAdverse
      maxHoldSec := some maxHoldSec
      intendedRisk := some intendedRisk }

end SavedMeta

structure SavedState where
  equityPeak : Dec
  equityPeakMarked : Dec
  dayProfitLocked : Bool
  ladderRung : ℤ
  dayStartEquity : Dec
  weekStartEquity : Dec
  monthStartEquity : Dec
  dayKey : Option ℤ
  weekKey : Option (ℤ × ℤ)
  monthKey : Option (ℤ × ℤ)
  yearKey : Option ℤ
  tradesToday : ℤ
  tradesWeek : ℤ
  tradesYear : ℤ
  lastEntryNs : Option ℤ
  halted : Bool
  haltReason : String
  positionMeta : Dict String SavedMeta
  entryRegime : Dict String String
  processedTrades : List String
  equityMarks : List (ℤ × Dec)
  tradeCursor : String
  guardSuspended : Dict String String

/-- What `_load_state` finds under the path of the file. -/
inductive StateFile where
  | absent
  | unreadable (error : String)
  | saved (state : SavedState)

namespace Agent

/-- The payload `_save_state` writes. -/
def save (a : Agent) : SavedState where
  equityPeak := a.equityPeak
  equityPeakMarked := a.equityPeakMarked
  dayProfitLocked := a.dayProfitLocked
  ladderRung := a.ladderRung
  dayStartEquity := a.dayStartEquity
  weekStartEquity := a.weekStartEquity
  monthStartEquity := a.monthStartEquity
  dayKey := a.dayKey
  weekKey := a.weekKey
  monthKey := a.monthKey
  yearKey := a.yearKey
  tradesToday := a.tradesToday
  tradesWeek := a.tradesWeek
  tradesYear := a.tradesYear
  lastEntryNs := a.lastEntryNs
  halted := a.halted
  haltReason := a.haltReason
  positionMeta := a.positionMeta.mapValues PositionMeta.save
  entryRegime := a.entryRegime
  processedTrades := a.processedOrder.items
  equityMarks := a.equityMarks.items
  tradeCursor := a.tradeCursor
  guardSuspended := a.guardSuspended

def saveFailed (error : String) : String :=
  "state persistence failed (" ++ error ++ "); new entries refused"

/-- What `_save_state` does to the agent itself: a failed write halts it. -/
def afterSave (a : Agent) (writeError : Option String) : Agent :=
  match writeError with
  | none => a
  | some error => { a with halted := true, haltReason := saveFailed error }

/-- The loop over `position_meta`. -/
def loadMeta (entries : List (String × SavedMeta)) (d : Dict String PositionMeta) :
    Except LoadError (Dict String PositionMeta) :=
  entries.foldlM (fun d entry => entry.2.load.map (d.set entry.1)) d

def unreadableState (error : String) : String :=
  "agent state is unreadable (" ++ error ++ "); restore it from a backup before resuming"

/-- `_load_state`, with the value it returns. -/
def load (a : Agent) : StateFile → Except LoadError (Agent × Bool)
  | .absent => .ok (a, false)
  | .unreadable error =>
      -- unreadable is not fresh
      .ok ({ a with halted := true, haltReason := unreadableState error }, false)
  | .saved s =>
      (loadMeta s.positionMeta.items a.positionMeta).map fun positionMeta =>
        ({ equityPeak := s.equityPeak
           equityPeakMarked := s.equityPeakMarked
           dayProfitLocked := s.dayProfitLocked
           ladderRung := s.ladderRung
           dayStartEquity := s.dayStartEquity
           weekStartEquity := s.weekStartEquity
           monthStartEquity := s.monthStartEquity
           dayKey := s.dayKey
           weekKey := s.weekKey
           monthKey := s.monthKey
           yearKey := s.yearKey
           tradesToday := s.tradesToday
           tradesWeek := s.tradesWeek
           tradesYear := s.tradesYear
           lastEntryNs := s.lastEntryNs
           -- a halt survives a restart
           halted := s.halted || a.halted
           haltReason := if s.halted then s.haltReason else a.haltReason
           positionMeta
           entryRegime := s.entryRegime
           processedOrder := .ofList s.processedTrades
           equityMarks := .ofList s.equityMarks
           tradeCursor := s.tradeCursor
           guardSuspended := s.guardSuspended },
          true)

end Agent

/-! ## What comes back -/

namespace PositionMeta

/-- The entry that comes back for `m`: the defaults are filled in. -/
def restored (m : PositionMeta) : PositionMeta where
  initialRisk := some (m.initialRisk.getD 0)
  intendedRisk := some (m.intendedRisk.getD 0)
  strategy := some (m.strategy.getD "")
  side := some m.sideText
  lots := some (m.lots.getD 0)
  entryPrice := some (m.entryPrice.getD 0)
  stopLoss := some m.stopLoss.join
  clientOrderId := some (m.clientOrderId.getD "")
  openedNs := some (m.openedNs.getD 0)
  regime := some (m.regime.getD "")
  maxHoldSec := some (m.maxHoldSec.getD 0)
  provisional := some (m.provisional.getD false)
  partialTaken := some (m.partialTaken.getD false)
  breakevenMoved := some (m.breakevenMoved.getD false)
  maxFavourable := some (m.maxFavourable.getD 0)
  maxAdverse := some (m.maxAdverse.getD 0)

end PositionMeta

theorem dec_getD_number (v : Option Dec) :
    ((v.map NumberText.number).getD (.number 0)).dec = .ok (v.getD 0) := by
  cases v <;> rfl

theorem decOrZero_getD_number (v : Option Dec) :
    ((v.map NumberText.number).getD (.number 0)).decOrZero = .ok (v.getD 0) := by
  cases v <;> rfl

theorem intOrZero_getD_number (v : Option ℤ) :
    ((v.map fun n => NumberText.number n).getD (.number 0)).intOrZero = .ok (v.getD 0) := by
  cases v <;> simp [NumberText.intOrZero]

theorem truncated_getD_number (v : Option ℤ) :
    ((v.map fun n => NumberText.number n).getD (.number 0)).truncated = .ok (v.getD 0) := by
  cases v <;> simp [NumberText.truncated]

theorem readFlag_boolText (v : Option Bool) : readFlag (v.map boolText) = v.getD false := by
  rcases v with _ | _ | _ <;> simp [readFlag, boolText]

theorem PositionMeta.readStop_save (m : PositionMeta) :
    m.save.readStop = .ok m.stopLoss.join := by
  rw [SavedMeta.readStop, PositionMeta.save]
  rcases m.stopLoss with _ | _ | _ <;> simp [priceText]

theorem PositionMeta.load_save (m : PositionMeta) : m.save.load = .ok m.restored := by
  rw [SavedMeta.load]
  rw [readStop_save]
  simp only [PositionMeta.save, dec_getD_number, decOrZero_getD_number, intOrZero_getD_number,
    truncated_getD_number, readFlag_boolText]
  rfl

namespace Agent

theorem loadMeta_save (a : Agent) :
    loadMeta (a.positionMeta.mapValues PositionMeta.save).items .empty =
      .ok (a.positionMeta.mapValues PositionMeta.restored) := by
  have hgen : ∀ (entries : List (String × PositionMeta)) (d : Dict String PositionMeta),
      loadMeta (entries.map fun kv => (kv.1, kv.2.save)) d =
        .ok ((entries.map fun kv => (kv.1, kv.2.restored)).foldl
          (fun d kv => d.set kv.1 kv.2) d) := by
    intro entries
    induction entries with
    | nil => exact fun d => rfl
    | cons kv entries ih =>
        intro d
        have hrest := ih (d.set kv.1 kv.2.restored)
        rw [loadMeta] at hrest ⊢
        rw [List.map_cons, List.foldlM_cons, PositionMeta.load_save]
        exact hrest
  have hitems := hgen a.positionMeta.items .empty
  have hrebuilt := Dict.ofEntries_items (a.positionMeta.mapValues PositionMeta.restored)
  rw [Dict.ofEntries] at hrebuilt
  rw [Dict.mapValues, hitems]
  exact congrArg Except.ok hrebuilt

def restored (a : Agent) : Agent :=
  { a with
    positionMeta := a.positionMeta.mapValues PositionMeta.restored
    haltReason := if a.halted then a.haltReason else "" }

theorem load_save (a : Agent) :
    ({} : Agent).load (.saved a.save) = .ok (a.restored, true) := by
  rw [load]
  simp only [save]
  rw [loadMeta_save]
  simp only [Except.map, restored, Bool.or_false, BoundedList.ofList_self]
  rfl

theorem localBook_restored (a : Agent) : a.restored.localBook = a.localBook := by
  rw [localBook, restored, Dict.mapValues]
  simp only [List.filterMap_map, Function.comp_def]
  congr 1
  funext kv
  unfold bookRow
  simp only [PositionMeta.restored, PositionMeta.sideText, Option.getD_some, Option.some.injEq,
    Option.join_some]
  rcases kv.2.provisional with _ | _ | _ <;> simp

end Agent

end Sentinel
