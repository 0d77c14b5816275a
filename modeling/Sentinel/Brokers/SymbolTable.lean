import Sentinel.Brokers.SymbolNames
import Sentinel.Core.Money

/-!
# The symbol table of the MetaTrader adapter

The table is built from the symbols the terminal lists.  A symbol that is
translated to a name the table already has takes its place.
-/

namespace Sentinel

structure VenueSymbol where
  name : List Char
  /-- `getattr(s, "trade_mode", 4)` -/
  tradeMode : Option ℤ := none
  digits : ℤ
  tradeContractSize : Dec
  volumeMin : Dec
  volumeStep : Dec
  volumeMax : Dec
  /-- `getattr(s, "trade_stops_level", 0)` -/
  tradeStopsLevel : ℤ := 0

/-- The adapter's names and specifications; `symbols` is the map of its
profile. -/
structure SymbolTable where
  symbols : SymbolMap
  venueSymbol : Dict (List Char) (List Char) := .empty
  canonical : Dict (List Char) (List Char) := .empty
  stopPoints : Dict (List Char) ℤ := .empty
  instruments : Dict (List Char) Instrument := .empty

namespace SymbolTable

variable (l : Letters)

def venue (t : SymbolTable) (canonical : List Char) : List Char :=
  (t.venueSymbol.get? canonical).getD (t.symbols.toVenue canonical)

/-- `_canon`, once the table is being built. -/
def canon (t : SymbolTable) (venueSymbol : List Char) : List Char :=
  (t.canonical.get? venueSymbol).getD (t.symbols.canonRaw l venueSymbol)

def tradeable (listed : List VenueSymbol) : List VenueSymbol :=
  listed.filter fun s => s.tradeMode.getD 4 ≠ 0

variable (ccy canonical : List Char)

def currencies : List Char × List Char :=
  if '_' ∈ canonical ∧ canonical.length = 7 then
    (canonical.takeWhile (· ≠ '_'), (canonical.dropWhile (· ≠ '_')).drop 1)
  else if canonical.length = 6 ∧ canonical.all l.isAlpha then
    (l.upperText (canonical.take 3), l.upperText (canonical.drop 3))
  else (canonical, ccy)

def pipExp (digits : ℤ) : ℤ := if digits = 3 ∨ digits = 5 then -(digits - 1) else -digits

theorem tick_le_pip (digits : ℤ) : (10 : Dec) ^ (-digits) ≤ 10 ^ pipExp digits := by
  apply zpow_le_zpow_right₀ (by norm_num)
  rw [pipExp]
  split_ifs
  · omega
  · exact le_rfl

/-- The specification of a symbol, or the `ValueError` of `__post_init__`. -/
def instrument (s : VenueSymbol) : Except String Instrument :=
  let symbol := String.ofList canonical
  if hsize : 0 < s.tradeContractSize then
    if hmin : 0 < s.volumeMin then
      if hstep : 0 < s.volumeStep then
        if hmax : 0 < s.volumeMax then
          if hle : s.volumeStep ≤ s.volumeMin then
            .ok
              { symbol := symbol
                base := String.ofList (currencies l ccy canonical).1
                quote := String.ofList (currencies l ccy canonical).2
                pip := 10 ^ pipExp s.digits
                tick := 10 ^ (-s.digits)
                contractSize := s.tradeContractSize
                minLot := s.volumeMin
                lotStep := s.volumeStep
                maxLot := s.volumeMax
                pip_pos := zpow_pos (by norm_num) _
                tick_pos := zpow_pos (by norm_num) _
                contractSize_pos := hsize
                minLot_pos := hmin
                lotStep_pos := hstep
                maxLot_pos := hmax
                lotStep_le_minLot := hle
                tick_le_pip := tick_le_pip s.digits }
          else .error (symbol ++ ": lot_step cannot exceed min_lot")
        else .error (symbol ++ ": max_lot must be > 0")
      else .error (symbol ++ ": lot_step must be > 0")
    else .error (symbol ++ ": min_lot must be > 0")
  else .error (symbol ++ ": contract_size must be > 0")

theorem exists_instrument_iff (s : VenueSymbol) :
    (∃ inst, instrument l ccy canonical s = .ok inst) ↔
      0 < s.tradeContractSize ∧ 0 < s.volumeMin ∧ 0 < s.volumeStep ∧ 0 < s.volumeMax ∧
        s.volumeStep ≤ s.volumeMin := by
  rw [instrument]
  split_ifs
  all_goals simp [*]

/-- One round of the loop of `_build_instruments_inner`. -/
def add (ccy : List Char) (t : SymbolTable) (s : VenueSymbol) : Except String SymbolTable := do
  let canonical := t.canon l s.name
  let inst ← instrument l ccy canonical s
  pure
    { t with
      instruments := t.instruments.set canonical inst
      venueSymbol := t.venueSymbol.set canonical s.name
      canonical := t.canonical.set s.name canonical
      stopPoints := t.stopPoints.set canonical s.tradeStopsLevel }

/-- `_build_instruments_inner`, on an adapter that has no table yet. -/
def build (symbols : SymbolMap) (ccy : List Char) (listed : List VenueSymbol) :
    Except String SymbolTable :=
  let raw := tradeable listed
  raw.foldlM (add l ccy) { symbols := symbols.inForce l (raw.map VenueSymbol.name) }

/-! ## The table that is built -/

section Built

variable (m : SymbolMap) (ccy : List Char)

def ofSymbols (raw : List VenueSymbol) : SymbolTable where
  symbols := m
  venueSymbol := .ofEntries (raw.map fun s => (m.canonRaw l s.name, s.name))
  canonical := .ofEntries (raw.map fun s => (s.name, m.canonRaw l s.name))
  stopPoints := .ofEntries (raw.map fun s => (m.canonRaw l s.name, s.tradeStopsLevel))
  instruments := .ofEntries (raw.filterMap fun s =>
    (instrument l ccy (m.canonRaw l s.name) s).toOption.map fun inst =>
      (m.canonRaw l s.name, inst))

theorem canon_ofSymbols (raw : List VenueSymbol) (v : List Char) :
    (ofSymbols l m ccy raw).canon l v = m.canonRaw l v := by
  rw [canon]
  cases hget : (ofSymbols l m ccy raw).canonical.get? v with
  | none => rfl
  | some c =>
      obtain ⟨s, -, heq⟩ := List.mem_map.1 (Dict.mem_of_get?_ofEntries hget)
      cases heq
      rfl

def WellFormed (raw : List VenueSymbol) : Prop :=
  ∀ s ∈ raw, ∃ inst, instrument l ccy (m.canonRaw l s.name) s = .ok inst

theorem ofEntries_concat {κ α : Type} [DecidableEq κ] (entries : List (κ × α)) (k : κ) (v : α) :
    Dict.ofEntries (entries ++ [(k, v)]) = (Dict.ofEntries entries).set k v := by
  rw [Dict.ofEntries, List.foldl_append]
  rfl

variable {raw : List VenueSymbol} {s : VenueSymbol}

theorem add_ofSymbols {inst : Instrument}
    (h : instrument l ccy (m.canonRaw l s.name) s = .ok inst) :
    add l ccy (ofSymbols l m ccy raw) s = .ok (ofSymbols l m ccy (raw ++ [s])) := by
  rw [add]
  simp only [canon_ofSymbols, h]
  simp only [ofSymbols, List.map_append, List.map_cons, List.map_nil, List.filterMap_append,
    List.filterMap_cons, List.filterMap_nil, h, Except.toOption, Option.map_some,
    ofEntries_concat]
  rfl

theorem add_ofSymbols_error {error : String}
    (h : instrument l ccy (m.canonRaw l s.name) s = .error error) :
    add l ccy (ofSymbols l m ccy raw) s = .error error := by
  rw [add]
  simp only [canon_ofSymbols, h]
  rfl

theorem wellFormed_concat :
    WellFormed l m ccy (raw ++ [s]) ↔
      WellFormed l m ccy raw ∧ ∃ inst, instrument l ccy (m.canonRaw l s.name) s = .ok inst := by
  simp only [WellFormed, List.forall_mem_append, List.forall_mem_singleton]

theorem foldlM_add_iff (raw : List VenueSymbol) (t : SymbolTable) :
    raw.foldlM (add l ccy) (ofSymbols l m ccy []) = .ok t ↔
      WellFormed l m ccy raw ∧ t = ofSymbols l m ccy raw := by
  induction raw using List.reverseRecOn generalizing t with
  | nil =>
      have hnone : WellFormed l m ccy [] := by simp [WellFormed]
      simp [hnone, pure, Except.pure, eq_comm]
  | append_singleton raw s ih =>
      rw [List.foldlM_append, wellFormed_concat]
      constructor
      · intro h
        rcases hraw : raw.foldlM (add l ccy) (ofSymbols l m ccy []) with error | t'
        · rw [hraw] at h
          cases h
        · obtain ⟨hwell, rfl⟩ := (ih t').1 hraw
          rw [hraw] at h
          rcases hinst : instrument l ccy (m.canonRaw l s.name) s with error | inst
          · simp only [List.foldlM_cons, bind, Except.bind, add_ofSymbols_error l m ccy hinst] at h
            cases h
          · simp only [List.foldlM_cons, bind, Except.bind, add_ofSymbols l m ccy hinst] at h
            cases h
            exact ⟨⟨hwell, inst, rfl⟩, rfl⟩
      · rintro ⟨⟨hwell, inst, hinst⟩, rfl⟩
        rw [(ih _).2 ⟨hwell, rfl⟩]
        simp only [List.foldlM_cons, bind, Except.bind, add_ofSymbols l m ccy hinst]
        rfl

end Built

structure OneToOne (symbols : SymbolMap) (ccy : List Char) (listed : List VenueSymbol)
    (t : SymbolTable) : Prop where
  /-- No two tradeable symbols have one canonical name. -/
  separate : ((tradeable listed).map fun s => t.canon l s.name).Nodup
  /-- A canonical name is found again from its symbol. -/
  inverse : ∀ c, (c ∈ t.instruments.keys ∨ SymbolMap.IsCanonical l c) → t.canon l (t.venue c) = c
  /-- The symbol and the specification of a name do not depend on the order. -/
  order : ∀ listed', listed'.Perm listed → ∃ t', build l symbols ccy listed' = .ok t' ∧
    ∀ c, t'.venue c = t.venue c ∧ t'.instruments.get? c = t.instruments.get? c ∧
      t'.stopPoints.get? c = t.stopPoints.get? c

variable {l} {symbols : SymbolMap} {ccy : List Char} {listed : List VenueSymbol}

abbrev force (l : Letters) (symbols : SymbolMap) (listed : List VenueSymbol) : SymbolMap :=
  symbols.inForce l ((tradeable listed).map VenueSymbol.name)

theorem build_eq_ok_iff {t : SymbolTable} :
    build l symbols ccy listed = .ok t ↔
      WellFormed l (force l symbols listed) ccy (tradeable listed) ∧
        t = ofSymbols l (force l symbols listed) ccy (tradeable listed) :=
  foldlM_add_iff l (force l symbols listed) ccy (tradeable listed) t

theorem tradeable_perm {listed' : List VenueSymbol} (h : listed'.Perm listed) :
    (tradeable listed').Perm (tradeable listed) :=
  h.filter _

theorem force_perm {listed' : List VenueSymbol} (h : listed'.Perm listed) :
    force l symbols listed' = force l symbols listed :=
  SymbolMap.inForce_perm ((tradeable_perm h).map VenueSymbol.name)

/-! ## Names -/

def Kept (l : Letters) (m : SymbolMap) (v : List Char) : Prop :=
  m.toCanonical l v ≠ v ∧ SymbolMap.punctuated (m.toCanonical l v) = true

inductive Clash (l : Letters) (m : SymbolMap) : List Char → List Char → Prop
  | twice (v : List Char) : Clash l m v v
  | formed {v v' : List Char} (hv : ¬ Kept l m v) (hv' : ¬ Kept l m v')
      (h : m.toCanonical l v = m.toCanonical l v') : Clash l m v v'
  | keptLeft {v v' : List Char} (hv : Kept l m v) (hv' : ¬ Kept l m v')
      (h : m.toCanonical l v' = v) : Clash l m v v'
  | keptRight {v v' : List Char} (hv : ¬ Kept l m v) (hv' : Kept l m v')
      (h : m.toCanonical l v = v') : Clash l m v v'

theorem canonRaw_of_kept {m : SymbolMap} {v : List Char} (h : Kept l m v) :
    m.canonRaw l v = v :=
  if_pos h

theorem canonRaw_of_not_kept {m : SymbolMap} {v : List Char} (h : ¬ Kept l m v) :
    m.canonRaw l v = m.toCanonical l v :=
  if_neg h

theorem canonRaw_eq_iff_clash (m : SymbolMap) (v v' : List Char) :
    m.canonRaw l v = m.canonRaw l v' ↔ Clash l m v v' := by
  constructor
  · intro h
    by_cases hv : Kept l m v
    · by_cases hv' : Kept l m v'
      · rw [canonRaw_of_kept hv, canonRaw_of_kept hv'] at h
        exact h ▸ .twice v
      · rw [canonRaw_of_kept hv, canonRaw_of_not_kept hv'] at h
        exact .keptLeft hv hv' h.symm
    · by_cases hv' : Kept l m v'
      · rw [canonRaw_of_not_kept hv, canonRaw_of_kept hv'] at h
        exact .keptRight hv hv' h
      · rw [canonRaw_of_not_kept hv, canonRaw_of_not_kept hv'] at h
        exact .formed hv hv' h
  · rintro (_ | ⟨hv, hv', h⟩ | ⟨hv, hv', h⟩ | ⟨hv, hv', h⟩)
    · rfl
    · rw [canonRaw_of_not_kept hv, canonRaw_of_not_kept hv', h]
    · rw [canonRaw_of_kept hv, canonRaw_of_not_kept hv', h]
    · rw [canonRaw_of_not_kept hv, canonRaw_of_kept hv', h]

theorem nodup_iff_clash (m : SymbolMap) (raw : List VenueSymbol) :
    (raw.map fun s => m.canonRaw l s.name).Nodup ↔
      raw.Pairwise fun s s' => ¬ Clash l m s.name s'.name := by
  rw [List.Nodup, List.pairwise_map]
  simp only [ne_eq, canonRaw_eq_iff_clash]

/-! ## The table's translation -/

section Table

variable {m : SymbolMap} {raw raw' : List VenueSymbol}

theorem keys_sublist {α β κ : Type} (f : α → Option β) (g : α → κ) (entries : List α) :
    ((entries.filterMap fun a => (f a).map fun b => (g a, b)).map Prod.fst).Sublist
      (entries.map g) := by
  induction entries with
  | nil => exact List.Sublist.slnil
  | cons a entries ih =>
      rw [List.filterMap_cons, List.map_cons]
      cases f a with
      | none => exact ih.cons (g a)
      | some b => exact ih.cons_cons (g a)

theorem exists_of_get?_venueSymbol {c v : List Char}
    (h : (ofSymbols l m ccy raw).venueSymbol.get? c = some v) :
    ∃ s ∈ raw, s.name = v ∧ m.canonRaw l v = c := by
  obtain ⟨s, hs, heq⟩ := List.mem_map.1 (Dict.mem_of_get?_ofEntries h)
  cases heq
  exact ⟨s, hs, rfl, rfl⟩

variable {c : List Char}

theorem get?_venueSymbol_eq_none_iff :
    (ofSymbols l m ccy raw).venueSymbol.get? c = none ↔ ∀ s ∈ raw, m.canonRaw l s.name ≠ c := by
  rw [ofSymbols, Dict.get?_ofEntries_eq_none_iff, List.map_map]
  simp

theorem exists_of_mem_instruments
    (h : c ∈ (ofSymbols l m ccy raw).instruments.keys) : ∃ s ∈ raw, m.canonRaw l s.name = c := by
  rw [← not_not (a := c ∈ _), ← Dict.get?_eq_none_iff, ofSymbols,
    Dict.get?_ofEntries_eq_none_iff, not_not] at h
  have hname := (keys_sublist _ _ raw).subset h
  exact List.mem_map.1 hname

theorem canon_venue_of_mem (h : ∃ s ∈ raw, m.canonRaw l s.name = c) :
    (ofSymbols l m ccy raw).canon l ((ofSymbols l m ccy raw).venue c) = c := by
  rw [canon_ofSymbols, venue]
  cases hget : (ofSymbols l m ccy raw).venueSymbol.get? c with
  | none =>
      obtain ⟨s, hs, hname⟩ := h
      exact absurd hname (get?_venueSymbol_eq_none_iff.1 hget s hs)
  | some v =>
      obtain ⟨-, -, -, hname⟩ := exists_of_get?_venueSymbol hget
      exact hname

theorem canon_venue_of_notMem (h : ∀ s ∈ raw, m.canonRaw l s.name ≠ c) :
    (ofSymbols l m ccy raw).canon l ((ofSymbols l m ccy raw).venue c) =
      m.canonRaw l (m.toVenue c) := by
  rw [canon_ofSymbols, venue, get?_venueSymbol_eq_none_iff.2 h]
  rfl

variable (ccy) in
theorem ofSymbols_perm (hperm : raw.Perm raw')
    (hnodup : (raw.map fun s => m.canonRaw l s.name).Nodup) (c : List Char) :
    (ofSymbols l m ccy raw).venue c = (ofSymbols l m ccy raw').venue c ∧
      (ofSymbols l m ccy raw).instruments.get? c =
        (ofSymbols l m ccy raw').instruments.get? c ∧
      (ofSymbols l m ccy raw).stopPoints.get? c = (ofSymbols l m ccy raw').stopPoints.get? c := by
  refine ⟨?_, ?_, ?_⟩
  · have hvenue : (ofSymbols l m ccy raw).venueSymbol.get? c =
        (ofSymbols l m ccy raw').venueSymbol.get? c := by
      apply Dict.get?_ofEntries_perm (hperm.map _)
      rwa [List.map_map]
    rw [venue, venue, hvenue]
    rfl
  · apply Dict.get?_ofEntries_perm (hperm.filterMap _)
    exact hnodup.sublist (keys_sublist _ _ raw)
  · apply Dict.get?_ofEntries_perm (hperm.map _)
    rwa [List.map_map]

end Table

/-- Translation is one-to-one exactly when no two tradeable symbols get one name
and the profile declares no spelling of a name that is not listed for another
one. -/
theorem oneToOne_iff {t : SymbolTable} (hbuild : build l symbols ccy listed = .ok t) :
    OneToOne l symbols ccy listed t ↔
      ((tradeable listed).Pairwise fun s s' =>
        ¬ Clash l (force l symbols listed) s.name s'.name) ∧
      ∀ c, SymbolMap.IsCanonical l c →
        (∀ s ∈ tradeable listed, (force l symbols listed).canonRaw l s.name ≠ c) →
        ∀ other, (force l symbols listed).declared ((force l symbols listed).toVenue c) =
            some other →
          other = c ∨ ((force l symbols listed).toVenue c = c ∧
            SymbolMap.punctuated other = true) := by
  obtain ⟨hwell, rfl⟩ := build_eq_ok_iff.1 hbuild
  rw [← nodup_iff_clash]
  constructor
  · rintro ⟨hseparate, hinverse, -⟩
    simp only [canon_ofSymbols] at hseparate
    refine ⟨hseparate, fun c hc hnone => ?_⟩
    rw [← SymbolMap.canonRaw_toVenue_iff hc, ← canon_venue_of_notMem hnone]
    exact hinverse c (Or.inr hc)
  · rintro ⟨hseparate, hdeclared⟩
    constructor
    · simpa only [canon_ofSymbols] using hseparate
    · intro c hc
      by_cases hlisted : ∃ s ∈ tradeable listed, (force l symbols listed).canonRaw l s.name = c
      · exact canon_venue_of_mem hlisted
      · rcases hc with hc | hc
        · exact absurd (exists_of_mem_instruments hc) hlisted
        · have hnone : ∀ s ∈ tradeable listed,
              (force l symbols listed).canonRaw l s.name ≠ c :=
            fun s hs heq => hlisted ⟨s, hs, heq⟩
          rw [canon_venue_of_notMem hnone, SymbolMap.canonRaw_toVenue_iff hc]
          exact hdeclared c hc hnone
    · intro listed' hperm
      have hraw := tradeable_perm hperm
      refine ⟨ofSymbols l (force l symbols listed) ccy (tradeable listed'), ?_, fun c => ?_⟩
      · rw [build_eq_ok_iff, force_perm hperm]
        exact ⟨fun s hs => hwell s (hraw.subset hs), rfl⟩
      · obtain ⟨hvenue, hinst, hstop⟩ := ofSymbols_perm ccy hraw.symm hseparate c
        exact ⟨hvenue.symm, hinst.symm, hstop.symm⟩

def pairSymbol (name : String) : VenueSymbol where
  name := name.toList
  digits := 5
  tradeContractSize := 100000
  volumeMin := 1 / 100
  volumeStep := 1 / 100
  volumeMax := 100

theorem wellFormed_pairSymbols (m : SymbolMap) (ccy : List Char) (names : List String) :
    WellFormed l m ccy (names.map pairSymbol) := by
  intro s hs
  obtain ⟨name, -, rfl⟩ := List.mem_map.1 hs
  rw [exists_instrument_iff]
  norm_num [pairSymbol]

def suffixedPairs : List VenueSymbol :=
  ["EURUSD.m", "GBPUSD.m", "USDJPY.m", "AUDNZD"].map pairSymbol

theorem oneToOne_iff_suffixedPairs :
    ∃ t, build Letters.ascii {} ['U', 'S', 'D'] suffixedPairs = .ok t ∧
      OneToOne Letters.ascii {} ['U', 'S', 'D'] suffixedPairs t := by
  have hbuild := build_eq_ok_iff.2
    ⟨wellFormed_pairSymbols (l := Letters.ascii) (force Letters.ascii {} suffixedPairs)
      ['U', 'S', 'D'] ["EURUSD.m", "GBPUSD.m", "USDJPY.m", "AUDNZD"], rfl⟩
  refine ⟨_, hbuild, (oneToOne_iff hbuild).2 ⟨(nodup_iff_clash _ _).mp ?_, ?_⟩⟩
  · decide +kernel
  · intro c _ _ other hother
    cases hother

def twoBooks : List VenueSymbol := ["EURUSD", "EURUSD.m", "GBPUSD.m"].map pairSymbol

theorem twoBooks_collapse :
    ∃ t, build Letters.ascii {} ['U', 'S', 'D'] twoBooks = .ok t ∧
      ¬ OneToOne Letters.ascii {} ['U', 'S', 'D'] twoBooks t := by
  have hbuild := build_eq_ok_iff.2
    ⟨wellFormed_pairSymbols (l := Letters.ascii) (force Letters.ascii {} twoBooks)
      ['U', 'S', 'D'] ["EURUSD", "EURUSD.m", "GBPUSD.m"], rfl⟩
  refine ⟨_, hbuild, fun honeToOne => ?_⟩
  have hseparate := honeToOne.separate
  simp only [canon_ofSymbols] at hseparate
  revert hseparate
  decide +kernel

end SymbolTable
end Sentinel
