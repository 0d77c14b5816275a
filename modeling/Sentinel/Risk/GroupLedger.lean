import Sentinel.Core.Money
import Sentinel.Support.Dict

/-!
# The group ledger

Engines of one owner each write one row into a shared directory and read the
rows of the others.  The name of an engine's file is its account name with
every character that is not plain replaced, cut after sixty-four; an engine
leaves the file of its own name out of its view.
-/

namespace Sentinel

structure GroupRow where
  account : String
  currency : String
  equity : Dec
  openRisk : Dec
  pendingRisk : Dec
  drawdownPct : Dec
  positions : ℤ
  currencyRisk : Dict String Dec
  writtenNs : ℤ
  halted : Bool := false

structure GroupView where
  members : List GroupRow := []
  stale : List String := []
  unreadable : List String := []
  othersOpenRisk : Dec := 0
  othersEquity : Dec := 0
  othersPositions : ℤ := 0
  othersCurrencyRisk : Dict String Dec := .empty

structure GroupLedger where
  account : String
  staleAfterNs : ℤ := 300 * 10 ^ 9
  deriving DecidableEq

/-- The files of the directory, by name less `.json`; `none` is a file that
does not read as a row. -/
abbrev GroupDirectory := Dict String (Option GroupRow)

structure ViewArgs where
  nowNs : ℤ
  conversions : Dict String Dec := .empty
  ownCurrency : String := ""

namespace GroupLedger

variable (isalnum : Char → Bool) (l : GroupLedger)

/-- `_safe`; `isalnum` is the character test of the language. -/
def safe (name : String) : String :=
  String.ofList
    ((name.toList.map fun c => if isalnum c || "-_.".toList.contains c then c else '_').take 64)

def file : String := safe isalnum l.account

def publish (dir : GroupDirectory) (row : GroupRow) : GroupDirectory :=
  dir.set (l.file isalnum) (some row)

/-- `Path.stem`; a file that is called just `.json` has no suffix. -/
def stem (name : String) : String := if name = "" then ".json" else name

variable (l : GroupLedger) (args : ViewArgs) (files : List (String × Option GroupRow))

def isStale (row : GroupRow) : Bool :=
  decide (l.staleAfterNs < args.nowNs - row.writtenNs)

def rateFor (args : ViewArgs) (row : GroupRow) : Option Dec :=
  if args.ownCurrency ≠ "" ∧ row.currency ≠ "" ∧ row.currency ≠ args.ownCurrency then
    (args.conversions.get? row.currency).filter fun rate => 0 < rate
  else some 1

def addMember (v : GroupView) (row : GroupRow) (rate : Dec) : GroupView :=
  { v with
    othersOpenRisk := v.othersOpenRisk + (row.openRisk + row.pendingRisk) * rate
    othersEquity := v.othersEquity + row.equity * rate
    othersPositions := v.othersPositions + row.positions
    othersCurrencyRisk :=
      row.currencyRisk.items.foldl (fun total kv => total.addTo kv.1 (kv.2 * rate))
        v.othersCurrencyRisk }

/-- One round of the loop of `view`. -/
def readFile (v : GroupView) (entry : String × Option GroupRow) : GroupView :=
  match entry.2 with
  | none => { v with unreadable := v.unreadable ++ [stem entry.1] }
  | some row =>
      let v := { v with members := v.members ++ [row] }
      if l.isStale args row then { v with stale := v.stale ++ [row.account] }
      else
        match rateFor args row with
        | none => { v with unreadable := v.unreadable ++ [row.account] }
        | some rate => addMember v row rate

def otherFiles (dir : GroupDirectory) : List (String × Option GroupRow) :=
  (dir.items.mergeSort fun a b => decide (a.1 ++ ".json" ≤ b.1 ++ ".json")).filter fun entry =>
    entry.1 ≠ l.file isalnum

def view (isalnum : Char → Bool) (l : GroupLedger) (dir : GroupDirectory) (args : ViewArgs) :
    GroupView :=
  (l.otherFiles isalnum dir).foldl (l.readFile args) {}

/-! ## What a view is made of -/

def counted : List (GroupRow × Dec) :=
  files.filterMap fun entry => entry.2.bind fun row =>
    if l.isStale args row then none else (rateFor args row).map fun rate => (row, rate)

def staleNames : List String :=
  files.filterMap fun entry => entry.2.bind fun row =>
    if l.isStale args row then some row.account else none

def unreadableNames : List String :=
  files.filterMap fun entry =>
    match entry.2 with
    | none => some (stem entry.1)
    | some row =>
        if l.isStale args row then none
        else if rateFor args row = none then some row.account else none

theorem foldl_readFile (v : GroupView) :
    (files.foldl (l.readFile args) v).stale = v.stale ++ l.staleNames args files ∧
      (files.foldl (l.readFile args) v).unreadable =
        v.unreadable ++ l.unreadableNames args files ∧
      (files.foldl (l.readFile args) v).othersOpenRisk =
        v.othersOpenRisk +
          ((l.counted args files).map fun m => (m.1.openRisk + m.1.pendingRisk) * m.2).sum := by
  induction files generalizing v with
  | nil => simp [staleNames, unreadableNames, counted]
  | cons entry files ih =>
      obtain ⟨hstale, hunreadable, hrisk⟩ := ih (l.readFile args v entry)
      rw [List.foldl_cons, hstale, hunreadable, hrisk]
      obtain ⟨name, content⟩ := entry
      cases content with
      | none => simp [readFile, staleNames, unreadableNames, counted]
      | some row =>
          by_cases hold : l.isStale args row = true
          · simp [readFile, staleNames, unreadableNames, counted, hold]
          · cases hrate : rateFor args row with
            | none => simp [readFile, staleNames, unreadableNames, counted, hold, hrate]
            | some rate =>
                simp [readFile, addMember, staleNames, unreadableNames, counted, hold, hrate,
                  add_assoc]

variable {l : GroupLedger} {args : ViewArgs} {files : List (String × Option GroupRow)}

theorem seen_of_mem {l : GroupLedger} (args : ViewArgs)
    {files : List (String × Option GroupRow)} {name : String} {row : GroupRow}
    (h : (name, some row) ∈ files) :
    (∃ rate, (row, rate) ∈ l.counted args files) ∨ row.account ∈ l.staleNames args files ∨
      row.account ∈ l.unreadableNames args files := by
  by_cases hold : l.isStale args row = true
  · exact .inr (.inl (List.mem_filterMap.2 ⟨_, h, by simp [hold]⟩))
  · cases hrate : rateFor args row with
    | none => exact .inr (.inr (List.mem_filterMap.2 ⟨_, h, by simp [hold, hrate]⟩))
    | some rate => exact .inl ⟨rate, List.mem_filterMap.2 ⟨_, h, by simp [hold, hrate]⟩⟩

theorem mem_of_counted {m : GroupRow × Dec}
    (h : m ∈ l.counted args files) : ∃ name, (name, some m.1) ∈ files := by
  obtain ⟨⟨name, content⟩, hmem, hcounted⟩ := List.mem_filterMap.1 h
  obtain ⟨row, hrow, hm⟩ := Option.bind_eq_some_iff.1 hcounted
  split_ifs at hm
  obtain ⟨rate, -, rfl⟩ := Option.map_eq_some_iff.1 hm
  simp only at hrow
  exact ⟨name, hrow ▸ hmem⟩

theorem mem_of_staleNames {account : String}
    (h : account ∈ l.staleNames args files) :
    ∃ name row, (name, some row) ∈ files ∧ row.account = account := by
  obtain ⟨⟨name, content⟩, hmem, hstale⟩ := List.mem_filterMap.1 h
  obtain ⟨row, hrow, hm⟩ := Option.bind_eq_some_iff.1 hstale
  split_ifs at hm
  simp only at hrow
  exact ⟨name, row, hrow ▸ hmem, Option.some.inj hm⟩

theorem mem_of_unreadableNames {account : String}
    (h : account ∈ l.unreadableNames args files) :
    (∃ name, (name, none) ∈ files) ∨
      ∃ name row, (name, some row) ∈ files ∧ row.account = account := by
  obtain ⟨⟨name, content⟩, hmem, hnamed⟩ := List.mem_filterMap.1 h
  cases content with
  | none => exact .inl ⟨name, hmem⟩
  | some row =>
      simp only at hnamed
      split_ifs at hnamed
      exact .inr ⟨name, row, hmem, Option.some.inj hnamed⟩

theorem mem_otherFiles {isalnum : Char → Bool} {l : GroupLedger} {dir : GroupDirectory}
    {name : String} {content : Option GroupRow} :
    (name, content) ∈ l.otherFiles isalnum dir ↔
      dir.get? name = some content ∧ name ≠ l.file isalnum := by
  rw [otherFiles, List.mem_filter, (List.mergeSort_perm _ _).mem_iff, Dict.mem_items_iff]
  simp

end GroupLedger

/-! ## Engines that publish -/

structure GroupRun where
  dir : GroupDirectory := .empty
  published : Dict String GroupRow := .empty

namespace GroupRun

variable (isalnum : Char → Bool)

def step (s : GroupRun) (m : GroupLedger × GroupRow) : GroupRun :=
  let row := { m.2 with account := m.1.account }
  { dir := m.1.publish isalnum s.dir row
    published := s.published.set m.1.account row }

def run (moves : List (GroupLedger × GroupRow)) : GroupRun :=
  moves.foldl (step isalnum) {}

def Accounts (l : GroupLedger) (dir : GroupDirectory) (args : ViewArgs) (row : GroupRow) :
    Prop :=
  (∃ rate, (row, rate) ∈ l.counted args (l.otherFiles isalnum dir)) ∨
    row.account ∈ (l.view isalnum dir args).stale ∨
    row.account ∈ (l.view isalnum dir args).unreadable

structure Filed (s : GroupRun) : Prop where
  written : ∀ name content, s.dir.get? name = some content → ∃ account row,
    content = some row ∧ s.published.get? account = some row ∧
      GroupLedger.safe isalnum account = name
  filed : ∀ account row, s.published.get? account = some row →
    row.account = account ∧ ∃ content, s.dir.get? (GroupLedger.safe isalnum account) = some content

variable {isalnum}

theorem Filed.step {s : GroupRun} (h : s.Filed isalnum) (m : GroupLedger × GroupRow) :
    (s.step isalnum m).Filed isalnum := by
  constructor
  · intro name content hname
    simp only [GroupRun.step, GroupLedger.publish, GroupLedger.file, Dict.get?_set] at hname ⊢
    split_ifs at hname with hsame
    · exact ⟨m.1.account, _, (Option.some.inj hname).symm, if_pos rfl, hsame.symm⟩
    · obtain ⟨account, row, hcontent, hrow, hfile⟩ := h.written name content hname
      have hne : account ≠ m.1.account := by
        rintro rfl
        exact hsame hfile.symm
      exact ⟨account, row, hcontent, by rw [if_neg hne, hrow], hfile⟩
  · intro account row hrow
    simp only [GroupRun.step, GroupLedger.publish, GroupLedger.file, Dict.get?_set] at hrow ⊢
    split_ifs at hrow with hsame
    · obtain rfl := Option.some.inj hrow
      exact ⟨hsame.symm, by rw [hsame, if_pos rfl]; exact ⟨_, rfl⟩⟩
    · obtain ⟨haccount, content, hcontent⟩ := h.filed account row hrow
      refine ⟨haccount, ?_⟩
      split_ifs
      · exact ⟨_, rfl⟩
      · exact ⟨content, hcontent⟩

theorem filed_run (isalnum : Char → Bool) (moves : List (GroupLedger × GroupRow)) :
    (run isalnum moves).Filed isalnum := by
  refine List.foldlRecOn moves (GroupRun.step isalnum) ⟨?_, ?_⟩ fun s hs m _ => hs.step m
  · intro name content h
    cases h
  · intro account row h
    cases h

theorem isSome_published (isalnum : Char → Bool) (moves : List (GroupLedger × GroupRow))
    (account : String) :
    ((run isalnum moves).published.get? account).isSome ↔
      ∃ m ∈ moves, m.1.account = account := by
  induction moves using List.reverseRecOn with
  | nil => simp [run, Dict.get?, Dict.empty]
  | append_singleton moves m ih =>
      have hstep : run isalnum (moves ++ [m]) = (run isalnum moves).step isalnum m := by
        rw [run, run, List.foldl_append]
        rfl
      rw [hstep, GroupRun.step, Dict.get?_set]
      by_cases hsame : account = m.1.account
      · simp [hsame]
      · rw [if_neg hsame, ih]
        simp [Ne.symm hsame]

theorem Accounts.exists_file {l : GroupLedger} {dir : GroupDirectory} {args : ViewArgs}
    {row : GroupRow} (h : Accounts isalnum l dir args row)
    (hdir : ∀ name, dir.get? name ≠ some none) :
    ∃ name r, dir.get? name = some (some r) ∧ name ≠ l.file isalnum ∧
      r.account = row.account := by
  obtain ⟨hstale, hunreadable, -⟩ :=
    GroupLedger.foldl_readFile l args (l.otherFiles isalnum dir) {}
  have hfound : ∃ name r, (name, some r) ∈ l.otherFiles isalnum dir ∧
      r.account = row.account := by
    rcases h with ⟨rate, hcounted⟩ | hnamed | hnamed
    · obtain ⟨name, hmem⟩ := GroupLedger.mem_of_counted hcounted
      exact ⟨name, row, hmem, rfl⟩
    · rw [GroupLedger.view, hstale, List.nil_append] at hnamed
      exact GroupLedger.mem_of_staleNames hnamed
    · rw [GroupLedger.view, hunreadable, List.nil_append] at hnamed
      rcases GroupLedger.mem_of_unreadableNames hnamed with ⟨name, hmem⟩ | hmem
      · exact absurd (GroupLedger.mem_otherFiles.1 hmem).1 (hdir name)
      · exact hmem
  obtain ⟨name, r, hmem, haccount⟩ := hfound
  exact ⟨name, r, (GroupLedger.mem_otherFiles.1 hmem).1, (GroupLedger.mem_otherFiles.1 hmem).2,
    haccount⟩

/-- Whatever engines published, in whatever order, every view accounts for the
last row of every other one exactly when no engine that published shares its
file name with another engine. -/
theorem views_account_iff (isalnum : Char → Bool) (engines : List GroupLedger)
    (moves : List (GroupLedger × GroupRow)) (hmoves : ∀ m ∈ moves, m.1 ∈ engines) :
    (∀ e ∈ engines, ∀ other ∈ engines, other.account ≠ e.account →
      ∀ row, (run isalnum moves).published.get? other.account = some row →
        ∀ args, Accounts isalnum e (run isalnum moves).dir args row) ↔
    ∀ m ∈ moves, ∀ e ∈ engines, e.account ≠ m.1.account →
      e.file isalnum ≠ m.1.file isalnum := by
  have hfiled := filed_run isalnum moves
  constructor
  · intro hviews m hm e he hne hfile
    obtain ⟨row, hrow⟩ := Option.isSome_iff_exists.1
      ((isSome_published isalnum moves m.1.account).2 ⟨m, hm, rfl⟩)
    have haccounts := hviews e he m.1 (hmoves m hm) (Ne.symm hne) row hrow ⟨0, .empty, ""⟩
    have hreadable : ∀ name, (run isalnum moves).dir.get? name ≠ some none := by
      intro name hnone
      obtain ⟨_, _, hcontent, -, -⟩ := hfiled.written name none hnone
      cases hcontent
    obtain ⟨name, r, hname, hother, haccount⟩ := haccounts.exists_file hreadable
    obtain ⟨account, r', hcontent, hpublished, hsafe⟩ := hfiled.written name _ hname
    obtain rfl : r = r' := Option.some.inj hcontent
    -- the file is the one of the same account, which the view leaves out
    have hwriter : account = m.1.account := by
      rw [← (hfiled.filed account r hpublished).1, haccount,
        (hfiled.filed m.1.account row hrow).1]
    rw [hwriter] at hsafe
    exact hother (hsafe.symm.trans hfile.symm)
  · intro hdistinct e he other hother hne row hrow args
    obtain ⟨m, hm, haccount⟩ := (isSome_published isalnum moves other.account).1
      (by rw [hrow]; rfl)
    obtain ⟨-, content, hcontent⟩ := hfiled.filed other.account row hrow
    obtain ⟨account, row', rfl, hpublished, hsafe⟩ := hfiled.written _ _ hcontent
    -- only the account itself writes this file
    have hwriter : account = other.account := by
      obtain ⟨m', hm', rfl⟩ := (isSome_published isalnum moves account).1
        (by rw [hpublished]; rfl)
      by_contra hdifferent
      exact hdistinct m' hm' other hother (Ne.symm hdifferent) hsafe.symm
    rw [hwriter, hrow] at hpublished
    obtain rfl : row = row' := Option.some.inj hpublished
    have hfile : GroupLedger.safe isalnum other.account ≠ e.file isalnum := by
      have hdiff := hdistinct m hm e he (haccount ▸ Ne.symm hne)
      rw [GroupLedger.file, GroupLedger.file, haccount] at hdiff
      exact Ne.symm hdiff
    have hmem := GroupLedger.mem_otherFiles.2 ⟨hcontent, hfile⟩
    obtain ⟨hstale, hunreadable, -⟩ :=
      GroupLedger.foldl_readFile e args (e.otherFiles isalnum (run isalnum moves).dir) {}
    rw [Accounts, GroupLedger.view, hstale, hunreadable, List.nil_append, List.nil_append]
    exact GroupLedger.seen_of_mem args hmem

end GroupRun

def thousandAtRisk (account : String) : GroupRow where
  account := account
  currency := "USD"
  equity := 100000
  openRisk := 1000
  pendingRisk := 0
  drawdownPct := 0
  positions := 1
  currencyRisk := .empty
  writtenNs := 0

theorem views_account_iff_plainNames :
    GroupRun.Accounts Char.isAlphanum ⟨"acct-b", 60⟩
      (GroupRun.run Char.isAlphanum [(⟨"acct-a", 60⟩, thousandAtRisk "acct-a")]).dir
      ⟨0, .empty, ""⟩ (thousandAtRisk "acct-a") := by
  have hviews := (GroupRun.views_account_iff Char.isAlphanum
    [⟨"acct-a", 60⟩, ⟨"acct-b", 60⟩] [(⟨"acct-a", 60⟩, thousandAtRisk "acct-a")]
    (by simp)).2 (by decide)
  exact hviews ⟨"acct-b", 60⟩ (by simp) ⟨"acct-a", 60⟩ (by simp) (by decide) _ rfl _

/-- The engines of the accounts `1001/A` and `1001_A` share the file `1001_A`:
the second does not see what the first published. -/
theorem not_views_account_slash :
    ¬∀ e ∈ [(⟨"1001/A", 60⟩ : GroupLedger), ⟨"1001_A", 60⟩],
      ∀ other ∈ [(⟨"1001/A", 60⟩ : GroupLedger), ⟨"1001_A", 60⟩], other.account ≠ e.account →
        ∀ row, (GroupRun.run Char.isAlphanum
          [(⟨"1001/A", 60⟩, thousandAtRisk "1001/A")]).published.get? other.account = some row →
          ∀ args, GroupRun.Accounts Char.isAlphanum e (GroupRun.run Char.isAlphanum
            [(⟨"1001/A", 60⟩, thousandAtRisk "1001/A")]).dir args row := by
  intro hviews
  have haccounts := hviews ⟨"1001_A", 60⟩ (by simp) ⟨"1001/A", 60⟩ (by simp) (by decide) _ rfl
    ⟨0, .empty, ""⟩
  have hdir : ∀ name content, (GroupRun.run Char.isAlphanum
      [(⟨"1001/A", 60⟩, thousandAtRisk "1001/A")]).dir.get? name = some content →
      name = "1001_A" ∧ content ≠ none := by
    intro name content hname
    obtain ⟨account, row, rfl, hpublished, hsafe⟩ :=
      (GroupRun.filed_run Char.isAlphanum _).written name content hname
    obtain ⟨m, hm, rfl⟩ := (GroupRun.isSome_published Char.isAlphanum _ account).1
      (by rw [hpublished]; rfl)
    rw [List.mem_singleton.1 hm] at hsafe
    exact ⟨hsafe.symm.trans (by decide), nofun⟩
  obtain ⟨name, r, hname, hother, -⟩ := haccounts.exists_file fun name hnone =>
    (hdir name none hnone).2 rfl
  exact hother ((hdir name _ hname).1.trans (by decide))

end Sentinel
