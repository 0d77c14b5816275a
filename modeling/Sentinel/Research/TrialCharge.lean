import Sentinel.Research.Trials

/-!
# The charge over a sequence of records

Counts of searches never fall.  The charge of a registered strategy does not
fall either, as its family is fixed; the family of any other strategy moves
with its latest row, and the charge with it.  It stays where it is while all rows
of the strategy name one family.
-/

namespace Sentinel

variable {ρ : Type} {env : TrialEnv ρ}

namespace TrialLedger

/-! ## The rows after a call -/

variable (l : TrialLedger)

theorem values_set (env : TrialEnv ρ) (c : TrialCall ρ) (kind : TrialKind)
    (now : ℤ) :
    (l.trials.get? (trialKey env c) = none ∧
      (l.trials.set (trialKey env c) (writtenRow env l c kind now)).values =
        l.trials.values ++ [firstRow env c kind now]) ∨
    ∃ row pre post, l.trials.get? (trialKey env c) = some row ∧
      l.trials.values = pre ++ row :: post ∧
      (l.trials.set (trialKey env c) (writtenRow env l c kind now)).values =
        pre ++ seenAgain row kind now :: post := by
  unfold writtenRow
  cases hrow : l.trials.get? (trialKey env c) with
  | none =>
      have hkey := (Dict.get?_eq_none_iff _ _).1 hrow
      refine .inl ⟨rfl, ?_⟩
      rw [Dict.values, Dict.items_set_of_notMem hkey, List.map_append]
      rfl
  | some row =>
      obtain ⟨pre, post, hitems, hset⟩ := Dict.exists_items_set hrow
      refine .inr ⟨row, pre.map Prod.snd, post.map Prod.snd, rfl, ?_, ?_⟩
      · rw [Dict.values, hitems, List.map_append, List.map_cons]
      · rw [Dict.values, hset, List.map_append, List.map_cons]

variable (p : String → String → Bool)

/-- A search, under names that `p` accepts. -/
def searchUnder (row : TrialRow) : Bool :=
  row.kind = .search && p row.strategy row.family

/-- The searches on record under names that `p` accepts. -/
def searches : ℕ :=
  l.trials.values.countP (searchUnder p)

theorem searchUnder_seenAgain {p : String → String → Bool} {row : TrialRow} (kind : TrialKind)
    (now : ℤ) (h : searchUnder p row = true) : searchUnder p (seenAgain row kind now) = true := by
  simp only [searchUnder, Bool.and_eq_true, decide_eq_true_eq] at h ⊢
  exact ⟨by simp [seenAgain, h.1], h.2⟩

theorem searchUnder_seenAgain_eq {row : TrialRow}
    {kind : TrialKind} (now : ℤ) (hkind : row.kind = .search ∨ kind = .validation) :
    searchUnder p (seenAgain row kind now) = searchUnder p row := by
  have hsame : (seenAgain row kind now).kind = row.kind := by
    rcases hkind with hrow | rfl
    · simp [seenAgain, hrow]
    · cases hrow : row.kind <;> simp [seenAgain, hrow]
  simp only [searchUnder, hsame]
  rfl

theorem count_search (strategy family : Option String) :
    l.count strategy family (some .search) =
      l.searches fun s f => matchesText strategy s && matchesText family f := by
  rw [count, searches]
  refine List.countP_congr fun row _ => ?_
  simp only [selects, matchesKind, searchUnder, Bool.and_assoc, eq_comm]

theorem length_searchesOf (strategy : String) :
    (l.searchesOf strategy).length = l.searches fun s _ => s = strategy := by
  rw [searchesOf, searches, List.countP_eq_length_filter]
  refine congrArg List.length (List.filter_congr fun row _ => ?_)
  simp only [searchUnder, Bool.decide_and, Bool.and_comm]

def afterCall (env : TrialEnv ρ) (l : TrialLedger) (c : TrialCall ρ) (kind : TrialKind)
    (now : ℤ) : Dict String TrialRow :=
  l.trials.set (trialKey env c) (writtenRow env l c kind now)

section Counts

variable {l l' : TrialLedger} {c : TrialCall ρ} {kind : TrialKind} {now : ℤ}

theorem searches_le (h : l'.trials = l.afterCall env c kind now)
    (p : String → String → Bool) : l.searches p ≤ l'.searches p := by
  rw [searches, searches, h, afterCall]
  rcases values_set l env c kind now with ⟨-, hvalues⟩ | ⟨row, pre, post, -, hold, hvalues⟩
  · rw [hvalues, List.countP_append]
    exact Nat.le_add_right _ _
  · rw [hvalues, hold, List.countP_append, List.countP_append, List.countP_cons,
      List.countP_cons]
    by_cases hrow : searchUnder p row = true
    · rw [searchUnder_seenAgain kind now hrow, hrow]
    · rw [if_neg hrow]
      omega

theorem searches_eq (h : l'.trials = l.afterCall env c kind now) {row : TrialRow}
    (hrow : l.trials.get? (trialKey env c) = some row)
    (hkind : row.kind = .search ∨ kind = .validation) (p : String → String → Bool) :
    l'.searches p = l.searches p := by
  rw [searches, searches, h, afterCall]
  rcases values_set l env c kind now with ⟨hnone, -⟩ | ⟨other, pre, post, hother, hold, hvalues⟩
  · rw [hrow] at hnone
    cases hnone
  · obtain rfl : row = other := Option.some.inj (hrow.symm.trans hother)
    rw [hvalues, hold, List.countP_append, List.countP_append, List.countP_cons,
      List.countP_cons, searchUnder_seenAgain_eq p now hkind]

theorem filter_strategy_eq (h : l'.trials = l.afterCall env c kind now) {strategy : String}
    (hother : (writtenRow env l c kind now).strategy ≠ strategy) :
    (l'.trials.values.filter fun row => row.strategy = strategy) =
      l.trials.values.filter fun row => row.strategy = strategy := by
  rw [h, afterCall]
  rcases values_set l env c kind now with ⟨hnone, hvalues⟩ | ⟨row, pre, post, hrow, hold, hvalues⟩
  · rw [writtenRow, hnone] at hother
    simp [hvalues, hother]
  · rw [writtenRow, hrow] at hother
    have hold' : row.strategy ≠ strategy := hother
    simp [hvalues, hold, hother, hold']

theorem familyFor_eq_of_ne (h : l'.trials = l.afterCall env c kind now) {strategy : String}
    (hother : (writtenRow env l c kind now).strategy ≠ strategy) :
    l'.familyFor env strategy = l.familyFor env strategy := by
  simp only [familyFor, recordedFamily, filter_strategy_eq h hother]

theorem mem_values_afterCall (h : l'.trials = l.afterCall env c kind now) {row : TrialRow}
    (hrow : row ∈ l'.trials.values) :
    row ∈ l.trials.values ∨ row.family = (writtenRow env l c kind now).family := by
  rw [h, afterCall] at hrow
  rcases values_set l env c kind now with
    ⟨hnone, hvalues⟩ | ⟨old, pre, post, hold, hbefore, hvalues⟩
  · rw [hvalues, List.mem_append, List.mem_singleton] at hrow
    refine hrow.imp_right ?_
    rintro rfl
    rw [writtenRow, hnone]
  · rw [hvalues, List.mem_append, List.mem_cons] at hrow
    rw [hbefore, writtenRow, hold]
    rcases hrow with hpre | rfl | hpost
    · exact .inl (by simp [hpre])
    · exact .inr rfl
    · exact .inl (by simp [hpost])

end Counts

def Registered (env : TrialEnv ρ) (strategy : String) : Prop :=
  (env.familyOf strategy).filter (· ≠ "") ≠ none

theorem Registered.familyFor_eq {strategy : String} (h : Registered env strategy)
    (l l' : TrialLedger) : l'.familyFor env strategy = l.familyFor env strategy := by
  obtain ⟨family, hfamily⟩ := Option.ne_none_iff_exists'.1 h
  simp only [familyFor, hfamily, Option.some_or, Option.getD_some]

def familyName (family : String) : String := if family = "" then "unclassified" else family

theorem mem_newest {rows : List TrialRow} {row : TrialRow} (h : newest rows = some row) :
    row ∈ rows := by
  induction rows generalizing row with
  | nil => cases h
  | cons first rows ih =>
      rw [newest] at h
      cases hrest : newest rows with
      | none =>
          rw [hrest] at h
          exact Option.some.inj h ▸ List.mem_cons_self
      | some other =>
          simp only [hrest] at h
          split_ifs at h
          · exact List.mem_cons_of_mem _ (ih (hrest.trans h))
          · exact Option.some.inj h ▸ List.mem_cons_self

theorem isSome_newest {rows : List TrialRow} (h : rows ≠ []) : (newest rows).isSome := by
  obtain ⟨row, rows, rfl⟩ := List.exists_cons_of_ne_nil h
  rw [newest]
  cases newest rows with
  | none => rfl
  | some other =>
      simp only
      split_ifs <;> rfl

theorem familyFor_eq_of_rows {strategy family : String} (hfree : ¬Registered env strategy)
    (hrows : ∃ row ∈ l.trials.values, row.strategy = strategy)
    (hall : ∀ row ∈ l.trials.values, row.strategy = strategy → familyName row.family = family) :
    l.familyFor env strategy = family := by
  obtain ⟨first, hfirst, hstrategy⟩ := hrows
  have hmem : first ∈ l.trials.values.filter fun row => row.strategy = strategy := by
    simpa [hfirst] using hstrategy
  obtain ⟨row, hnewest⟩ :=
    Option.isSome_iff_exists.1 (isSome_newest (List.ne_nil_of_mem hmem))
  have hrow := List.mem_filter.1 (mem_newest hnewest)
  have hnamed := hall row hrow.1 (by simpa using hrow.2)
  simp only [familyFor, not_not.1 hfree, Option.none_or, recordedFamily, hnewest, ← hnamed,
    familyName, Option.map_some]
  split_ifs with hempty
  · simp [Option.filter, hempty]
  · simp [Option.filter, hempty]

theorem familyFor_eq_of_unseen {strategy : String} (hfree : ¬Registered env strategy)
    (hnone : ∀ row ∈ l.trials.values, row.strategy ≠ strategy) :
    l.familyFor env strategy = "unclassified" := by
  have hnil : (l.trials.values.filter fun row => row.strategy = strategy) = [] := by
    simpa using hnone
  simp only [familyFor, not_not.1 hfree, Option.none_or, recordedFamily, hnil]
  rfl

def familySearches (family : String) : ℕ :=
  l.count none (some family) (some .search)

theorem chargeOf_eq (strategy : String) :
    l.chargeOf env strategy =
      max (l.searchesOf strategy).length (l.familySearches (l.familyFor env strategy)) :=
  rfl

end TrialLedger

/-! ## Sequences of calls -/

/-- The ledger and the calls it recorded. -/
structure TrialRun (ρ : Type) where
  ledger : TrialLedger
  recorded : List (TrialCall ρ) := []

namespace TrialRun

/-- A call of `record` at a time; one that raises records nothing. -/
def step (env : TrialEnv ρ) (s : TrialRun ρ) (m : ℤ × TrialCall ρ) : TrialRun ρ :=
  match s.ledger.record env m.1 m.2 with
  | .error _ => s
  | .ok (_, ledger) => ⟨ledger, s.recorded ++ [m.2]⟩

def Repeats (env : TrialEnv ρ) (s : TrialRun ρ) (c : TrialCall ρ) : Prop :=
  ∃ d ∈ s.recorded, TrialLedger.trialKey env d = TrialLedger.trialKey env c ∧
    (d.kind = "search" ∨ c.kind = "validation")

structure ChargesKept (env : TrialEnv ρ) (s : TrialRun ρ) (m : ℤ × TrialCall ρ) : Prop where
  grows : ∀ strategy,
    s.ledger.chargeOf env strategy ≤ (s.step env m).ledger.chargeOf env strategy
  repeated : s.Repeats env m.2 → ∀ strategy,
    (s.step env m).ledger.chargeOf env strategy ≤ s.ledger.chargeOf env strategy
  counts : ∀ strategy family, s.ledger.count strategy family (some .search) ≤
    (s.step env m).ledger.count strategy family (some .search)

def rowNames (env : TrialEnv ρ) (l : TrialLedger) (c : TrialCall ρ) : String × String :=
  match l.trials.get? (TrialLedger.trialKey env c) with
  | some row => (row.strategy, row.family)
  | none => (c.strategy, c.family)

def searchesNamed (l : TrialLedger) (family : String) : ℕ :=
  l.trials.values.countP fun row => row.kind = .search ∧ row.family = family

/-- The strategy is registered, or its rows all name the family the call records
it under; a strategy without rows does not go to a family with fewer searches than
the unclassified ones. -/
def FamilyKept (env : TrialEnv ρ) (s : TrialRun ρ) (m : ℤ × TrialCall ρ) : Prop :=
  let strategy := (rowNames env s.ledger m.2).1
  let family := TrialLedger.familyName (rowNames env s.ledger m.2).2
  TrialLedger.Registered env strategy ∨
    (∀ row ∈ s.ledger.trials.values, row.strategy = strategy →
      TrialLedger.familyName row.family = family) ∧
    ((∀ row ∈ s.ledger.trials.values, row.strategy ≠ strategy) →
      searchesNamed s.ledger "unclassified" ≤
        searchesNamed s.ledger family + if m.2.kind = "search" then 1 else 0)

def Kept (env : TrialEnv ρ) (s : TrialRun ρ) : Prop :=
  ∀ d ∈ s.recorded, ∃ row, s.ledger.trials.get? (TrialLedger.trialKey env d) = some row ∧
    (d.kind = "search" → row.kind = .search)

variable {s : TrialRun ρ}

theorem step_of_none {m : ℤ × TrialCall ρ}
    (h : TrialKind.ofText? m.2.kind = none) : s.step env m = s := by
  simp only [step, TrialLedger.record, h]

theorem step_of_some (env : TrialEnv ρ) (s : TrialRun ρ) {m : ℤ × TrialCall ρ}
    {kind : TrialKind} (h : TrialKind.ofText? m.2.kind = some kind) :
    (s.step env m).ledger.trials = s.ledger.afterCall env m.2 kind m.1 ∧
      (s.step env m).recorded = s.recorded ++ [m.2] := by
  constructor
  · simp only [step, TrialLedger.record, h]
    rfl
  · simp only [step, TrialLedger.record, h]

theorem ofText?_search {text : String} {kind : TrialKind}
    (h : TrialKind.ofText? text = some kind) :
    (text = "search" → kind = .search) ∧ (text = "validation" → kind = .validation) := by
  unfold TrialKind.ofText? at h
  split at h
  · exact ⟨fun _ => (Option.some.inj h).symm, fun heq => absurd heq (by decide)⟩
  · exact ⟨fun heq => absurd heq (by decide), fun _ => (Option.some.inj h).symm⟩
  · cases h

theorem Kept.row_of_repeats (h : s.Kept env) {c : TrialCall ρ}
    {kind : TrialKind} (hkind : TrialKind.ofText? c.kind = some kind) (hc : s.Repeats env c) :
    ∃ row, s.ledger.trials.get? (TrialLedger.trialKey env c) = some row ∧
      (row.kind = .search ∨ kind = .validation) := by
  obtain ⟨d, hd, hkey, hstrict⟩ := hc
  obtain ⟨row, hrow, hsearch⟩ := h d hd
  refine ⟨row, hkey ▸ hrow, ?_⟩
  rcases hstrict with hdsearch | hcvalidation
  · exact .inl (hsearch hdsearch)
  · exact .inr ((ofText?_search hkind).2 hcvalidation)

theorem Kept.step (h : s.Kept env) (m : ℤ × TrialCall ρ) : (s.step env m).Kept env := by
  cases hkind : TrialKind.ofText? m.2.kind with
  | none => rwa [step_of_none hkind]
  | some kind =>
      obtain ⟨htrials, hrecorded⟩ := step_of_some env s hkind
      intro d hd
      rw [htrials, TrialLedger.afterCall, Dict.get?_set]
      rw [hrecorded, List.mem_append, List.mem_singleton] at hd
      by_cases hkey : TrialLedger.trialKey env d = TrialLedger.trialKey env m.2
      · rw [if_pos hkey]
        refine ⟨_, rfl, fun hdsearch => ?_⟩
        -- the row was a search already, or this call makes it one
        rcases hd with hold | rfl
        · obtain ⟨row, hrow, hsearch⟩ := h d hold
          rw [hkey] at hrow
          simp [TrialLedger.writtenRow, hrow, TrialLedger.seenAgain, hsearch hdsearch]
        · have hk : kind = .search := (ofText?_search hkind).1 hdsearch
          unfold TrialLedger.writtenRow
          split
          · exact hk
          · simp [TrialLedger.seenAgain, hk]
      · rw [if_neg hkey]
        rcases hd with hold | rfl
        · exact h d hold
        · exact absurd rfl hkey

variable (env) in
theorem writtenRow_names (l : TrialLedger) (c : TrialCall ρ) (kind : TrialKind) (now : ℤ) :
    let row := TrialLedger.writtenRow env l c kind now
    (row.strategy, row.family) = rowNames env l c := by
  unfold TrialLedger.writtenRow rowNames
  cases l.trials.get? (TrialLedger.trialKey env c) <;> rfl

theorem searchesNamed_eq (l : TrialLedger) (family : String) :
    searchesNamed l family = l.searches fun _ f => f = family := by
  refine List.countP_congr fun row _ => ?_
  simp [TrialLedger.searchUnder]

theorem familySearches_eq (l : TrialLedger) {family : String} (h : family ≠ "") :
    l.familySearches family = searchesNamed l family := by
  have hsame : (fun s f => TrialLedger.matchesText none s &&
      TrialLedger.matchesText (some family) f) = fun _ f => decide (f = family) := by
    funext _ f
    simp [TrialLedger.matchesText, h, eq_comm (a := family)]
  rw [TrialLedger.familySearches, TrialLedger.count_search, searchesNamed_eq, hsame]

theorem familyName_ne (family : String) : TrialLedger.familyName family ≠ "" := by
  unfold TrialLedger.familyName
  split_ifs with h
  · decide
  · exact h

theorem familyKept_after {m : ℤ × TrialCall ρ} {kind : TrialKind}
    (hkind : TrialKind.ofText? m.2.kind = some kind) (h : s.FamilyKept env m)
    (hfree : ¬TrialLedger.Registered env (rowNames env s.ledger m.2).1) :
    (s.step env m).ledger.familyFor env (rowNames env s.ledger m.2).1 =
      TrialLedger.familyName (rowNames env s.ledger m.2).2 := by
  obtain ⟨htrials, -⟩ := step_of_some env s hkind
  have hnames := writtenRow_names env s.ledger m.2 kind m.1
  obtain ⟨hsame, -⟩ := h.resolve_left hfree
  refine TrialLedger.familyFor_eq_of_rows _ hfree ?_ ?_
  · refine ⟨TrialLedger.writtenRow env s.ledger m.2 kind m.1, ?_, congrArg Prod.fst hnames⟩
    rw [htrials, TrialLedger.afterCall]
    exact (Dict.mem_values_iff _ _).2 ⟨_, Dict.get?_set_self _ _ _⟩
  · intro row hrow hstrategy
    rcases TrialLedger.mem_values_afterCall htrials hrow with hold | hfamily
    · exact hsame row hold hstrategy
    · rw [hfamily, ← hnames]

theorem searchesNamed_le {l l' : TrialLedger} {c : TrialCall ρ} {kind : TrialKind} {now : ℤ}
    (h : l'.trials = l.afterCall env c kind now) (family : String) :
    searchesNamed l family ≤ searchesNamed l' family := by
  rw [searchesNamed_eq, searchesNamed_eq]
  exact TrialLedger.searches_le h _

theorem searchesNamed_new {l l' : TrialLedger} {c : TrialCall ρ} {kind : TrialKind} {now : ℤ}
    (h : l'.trials = l.afterCall env c kind now)
    (hnew : l.trials.get? (TrialLedger.trialKey env c) = none) :
    searchesNamed l' c.family =
      searchesNamed l c.family + if kind = .search then 1 else 0 := by
  rw [searchesNamed, h, TrialLedger.afterCall]
  rcases TrialLedger.values_set l env c kind now with ⟨-, hvalues⟩ | ⟨row, -, -, hrow, -⟩
  · rw [hvalues, List.countP_append, searchesNamed]
    simp [List.countP_cons, TrialLedger.firstRow]
  · rw [hnew] at hrow
    cases hrow

theorem familyFor_cases {m : ℤ × TrialCall ρ} {kind : TrialKind}
    (hkind : TrialKind.ofText? m.2.kind = some kind) (h : s.FamilyKept env m)
    (strategy : String) :
    (s.step env m).ledger.familyFor env strategy = s.ledger.familyFor env strategy ∨
      s.ledger.trials.get? (TrialLedger.trialKey env m.2) = none ∧
        s.ledger.familyFor env strategy = "unclassified" ∧
        searchesNamed s.ledger "unclassified" ≤
          searchesNamed (s.step env m).ledger ((s.step env m).ledger.familyFor env strategy) ∧
        (s.step env m).ledger.familyFor env strategy ≠ "" := by
  obtain ⟨htrials, -⟩ := step_of_some env s hkind
  have hnames := writtenRow_names env s.ledger m.2 kind m.1
  by_cases hown : (rowNames env s.ledger m.2).1 = strategy
  case neg =>
    exact .inl (TrialLedger.familyFor_eq_of_ne htrials
      (fun heq => hown ((congrArg Prod.fst hnames).symm.trans heq)))
  by_cases hregistered : TrialLedger.Registered env strategy
  · exact .inl (hregistered.familyFor_eq _ _)
  subst hown
  have hafter := familyKept_after hkind h hregistered
  obtain ⟨hsame, hcount⟩ := h.resolve_left hregistered
  by_cases hseen : ∃ row ∈ s.ledger.trials.values,
      row.strategy = (rowNames env s.ledger m.2).1
  · exact .inl (hafter.trans
      (TrialLedger.familyFor_eq_of_rows _ hregistered hseen hsame).symm)
  · push Not at hseen
    have hnew : s.ledger.trials.get? (TrialLedger.trialKey env m.2) = none := by
      cases hrow : s.ledger.trials.get? (TrialLedger.trialKey env m.2) with
      | none => rfl
      | some row =>
          refine absurd ?_ (hseen row ((Dict.mem_values_iff _ _).2 ⟨_, hrow⟩))
          rw [rowNames, hrow]
    have hcall : rowNames env s.ledger m.2 = (m.2.strategy, m.2.family) := by
      rw [rowNames, hnew]
    have hmore := hcount hseen
    rw [hafter]
    refine .inr ⟨hnew, TrialLedger.familyFor_eq_of_unseen _ hregistered hseen, ?_,
      familyName_ne _⟩
    rw [hcall] at hmore ⊢
    by_cases hempty : m.2.family = ""
    · have hname : TrialLedger.familyName m.2.family = "unclassified" := if_pos hempty
      rw [hname]
      exact searchesNamed_le htrials _
    · have hname : TrialLedger.familyName m.2.family = m.2.family := if_neg hempty
      rw [hname] at hmore ⊢
      rw [searchesNamed_new htrials hnew]
      refine hmore.trans (Nat.add_le_add_left ?_ _)
      split_ifs with hsearch hkindsearch
      · exact le_rfl
      · exact absurd ((ofText?_search hkind).1 hsearch) hkindsearch
      · exact Nat.zero_le _
      · exact le_rfl

theorem Kept.chargesKept_step (h : s.Kept env) {m : ℤ × TrialCall ρ}
    (hm : s.FamilyKept env m) : s.ChargesKept env m := by
  cases hkind : TrialKind.ofText? m.2.kind with
  | none => exact ⟨fun _ => by rw [step_of_none hkind], fun _ _ => by rw [step_of_none hkind],
      fun _ _ => by rw [step_of_none hkind]⟩
  | some kind =>
      obtain ⟨htrials, -⟩ := step_of_some env s hkind
      have hcounts : ∀ strategy family, s.ledger.count strategy family (some .search) ≤
          (s.step env m).ledger.count strategy family (some .search) := by
        intro strategy family
        rw [TrialLedger.count_search, TrialLedger.count_search]
        exact TrialLedger.searches_le htrials _
      have hown : ∀ strategy, (s.ledger.searchesOf strategy).length ≤
          ((s.step env m).ledger.searchesOf strategy).length := by
        intro strategy
        rw [TrialLedger.length_searchesOf, TrialLedger.length_searchesOf]
        exact TrialLedger.searches_le htrials _
      refine ⟨fun strategy => ?_, fun hrepeats strategy => ?_, hcounts⟩
      · rw [TrialLedger.chargeOf_eq, TrialLedger.chargeOf_eq]
        refine max_le_max (hown strategy) ?_
        rcases familyFor_cases hkind hm strategy with hsame | ⟨-, hbefore, hmore, hnamed⟩
        · rw [hsame]
          exact hcounts none _
        · rw [hbefore, familySearches_eq _ (by decide), familySearches_eq _ hnamed]
          exact hmore
      · obtain ⟨row, hrow, hstrict⟩ := h.row_of_repeats hkind hrepeats
        have hfixed : ∀ p, (s.step env m).ledger.searches p = s.ledger.searches p :=
          TrialLedger.searches_eq htrials hrow hstrict
        rcases familyFor_cases hkind hm strategy with hsame | ⟨hnew, -⟩
        · rw [TrialLedger.chargeOf_eq, TrialLedger.chargeOf_eq, hsame,
            TrialLedger.familySearches, TrialLedger.count_search, TrialLedger.length_searchesOf,
            hfixed, hfixed, ← TrialLedger.length_searchesOf, ← TrialLedger.count_search]
          rfl
        · rw [hrow] at hnew
          cases hnew

/-- Over a sequence of calls that record every strategy that is not registered
under one family no charge falls, no trial recorded again raises one and no count
of searches falls. -/
theorem chargesKept_run {ledger : TrialLedger} {calls : List (ℤ × TrialCall ρ)}
    (hcalls : Along (step env) (FamilyKept env) ⟨ledger, []⟩ calls) :
    Along (step env) (ChargesKept env) ⟨ledger, []⟩ calls := by
  refine Along.mono (I := fun s => s.Kept env) ?_ ?_ ?_ hcalls
  · intro s m h _
    exact h.step m
  · intro s m h hm
    exact h.chargesKept_step hm
  · intro d hd
    exact absurd hd List.not_mem_nil

end TrialRun

def bareEnv : TrialEnv Unit where
  dumps _ := "{}"
  digest strategy _ _ _ window := strategy ++ "|" ++ window
  sessionId := "s1"
  familyOf _ := none

def searchOf (strategy family : String) (window : String) : TrialCall Unit :=
  { strategy, family, params := (), dataWindow := window }

instance (strategy : String) : Decidable (TrialLedger.Registered bareEnv strategy) :=
  inferInstanceAs (Decidable (_ ≠ _))

instance (s : TrialRun Unit) (m : ℤ × TrialCall Unit) : Decidable (s.FamilyKept bareEnv m) :=
  inferInstanceAs (Decidable (_ ∨ _))

/-- Three strategies of a family, one of them recorded again, and one on its
own. -/
theorem chargesKept_run_families :
    Along (TrialRun.step bareEnv) (TrialRun.ChargesKept bareEnv) ⟨{}, []⟩
      [(1, searchOf "a" "trend" "w1"), (2, searchOf "b" "trend" "w1"),
        (3, searchOf "x" "trend" "w1"), (4, searchOf "a" "trend" "w1"),
        (5, searchOf "x" "trend" "w2"), (6, searchOf "c" "carry" "w1")] :=
  TrialRun.chargesKept_run (by decide +kernel)

/-- A strategy that is not registered is charged with the three searches of
the family `trend`; recorded once under `carry` it is charged with two. -/
theorem not_chargesKept_renamed :
    ¬Along (TrialRun.step bareEnv) (TrialRun.ChargesKept bareEnv) ⟨{}, []⟩
      [(1, searchOf "a" "trend" "w1"), (2, searchOf "b" "trend" "w1"),
        (3, searchOf "x" "trend" "w1"), (4, searchOf "x" "carry" "w2")] := by
  rintro ⟨-, -, -, hlast, -⟩
  have hgrows := hlast.grows "x"
  revert hgrows
  decide

end Sentinel
