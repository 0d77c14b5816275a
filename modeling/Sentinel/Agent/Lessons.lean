import Sentinel.Core.Money
import Sentinel.Support.Runs
import Sentinel.Support.Substring

/-!
# The lesson store

A lesson is minted, re-tested and retired; minting it again supersedes the row
that stands under its statement and scope.  Why a lesson was retired is in the
text of its evidence only.  The ledger beside the store says which lessons were
decided: by an operator, or by the evidence.
-/

namespace Sentinel

/-! ## Rows -/

inductive LessonStatus where
  | active
  | retired
  | superseded
  deriving DecidableEq

structure LessonKey where
  statement : String
  strategy : String
  instrument : String
  regime : String
  deriving DecidableEq

/-- `Lesson`, as far as the store reads it. -/
structure Lesson where
  statement : String
  strategy : Option String := none
  instrument : Option String := none
  regime : Option String := none
  sampleSize : ℕ := 0
  effectR : Dec := 0
  createdNs : ℤ := 0
  lastConfirmedNs : ℤ := 0
  reviewCount : ℕ := 0
  contradictionCount : ℕ := 0
  /-- `retire_reason` of the evidence -/
  retireReason : String := ""

def Lesson.key (l : Lesson) : LessonKey where
  statement := l.statement
  strategy := l.strategy.getD ""
  instrument := l.instrument.getD ""
  regime := l.regime.getD ""

/-- `lesson.last_confirmed_ns or lesson.created_ns`. -/
def Lesson.stamped (l : Lesson) : Lesson :=
  { l with lastConfirmedNs := if l.lastConfirmedNs = 0 then l.createdNs else l.lastConfirmedNs }

/-- A row of `lessons`. -/
structure LessonRow extends Lesson where
  id : ℕ
  status : LessonStatus := .active
  supersededBy : Option ℕ := none

namespace LessonRow

def standing (r : LessonRow) : Bool := r.status = .active || r.status = .retired

def blocks (r : LessonRow) : Bool :=
  decide (0 < r.contradictionCount) ||
    anyOccursIn ["contradict", "reversal", "operator", "manual"] r.retireReason

end LessonRow

/-! ## The store -/

structure LessonStore where
  rows : List LessonRow := []
  nextId : ℕ := 1
  ascending : (rows.map LessonRow.id).Pairwise (· < ·) := by first | exact List.Pairwise.nil | simp
  below : ∀ r ∈ rows, r.id < nextId := by first | exact List.forall_mem_nil _ | simp

namespace LessonStore

/-- Rewrite the rows that `p` selects. -/
def update (s : LessonStore) (p : LessonRow → Bool) (f : LessonRow → LessonRow)
    (hid : ∀ r, (f r).id = r.id := by intro r; rfl) : LessonStore where
  rows := s.rows.map fun r => if p r then f r else r
  nextId := s.nextId
  ascending := by
    have hids : (LessonRow.id ∘ fun r => if p r then f r else r) = LessonRow.id := by
      funext r
      rw [Function.comp_apply]
      split_ifs
      · exact hid r
      · rfl
    rw [List.map_map, hids]
    exact s.ascending
  below := by
    intro r' hr'
    obtain ⟨r, hr, rfl⟩ := List.mem_map.1 hr'
    split_ifs
    · rw [hid]
      exact s.below r hr
    · exact s.below r hr

def insert (s : LessonStore) (l : Lesson) : LessonStore where
  rows := s.rows ++ [{ l with id := s.nextId }]
  nextId := s.nextId + 1
  ascending := by
    rw [List.map_append, List.pairwise_append]
    refine ⟨s.ascending, List.pairwise_singleton _ _, ?_⟩
    intro id hid id' hid'
    obtain ⟨r, hr, rfl⟩ := List.mem_map.1 hid
    rw [List.mem_singleton.1 hid']
    exact s.below r hr
  below := by
    intro r hr
    rcases List.mem_append.1 hr with hold | hnew
    · exact Nat.lt_succ_of_lt (s.below r hold)
    · rw [List.mem_singleton.1 hnew]
      exact Nat.lt_succ_self _

def prior (s : LessonStore) (k : LessonKey) : Option LessonRow :=
  let found := s.rows.filter fun r => decide (r.key = k)
  (found.filter fun r => decide (r.status = .active)).getLast?.or
    (found.filter fun r => decide (r.status = .retired)).getLast?

def supersede (newId : ℕ) (r : LessonRow) : LessonRow :=
  { r with status := .superseded, supersededBy := some newId }

theorem id_supersede (newId : ℕ) (r : LessonRow) : (supersede newId r).id = r.id := rfl

def mint (s : LessonStore) (l : Lesson) (prior : Option LessonRow) : LessonStore :=
  match prior with
  | none => s.insert l.stamped
  | some p =>
      (s.insert l.stamped).update (fun r => decide (r.id = p.id)) (supersede s.nextId)
        (id_supersede s.nextId)

/-- `add_lesson`: the store, and the id it returns. -/
def addLesson (s : LessonStore) (l : Lesson) : LessonStore × ℕ :=
  match s.prior l.key with
  | none => (s.mint l none, s.nextId)
  | some p =>
      if p.status = .retired then
        if p.blocks then (s, p.id)
        else
          (s.mint { l with contradictionCount := max l.contradictionCount p.contradictionCount }
            (some p), s.nextId)
      else (s.mint l (some p), s.nextId)

/-- `retire`: the store, and whether there was such an active lesson. -/
def retire (s : LessonStore) (id : ℕ) (reason : String) : LessonStore × Bool :=
  (s.update (fun r => decide (r.id = id ∧ r.status = .active)) fun r =>
      { r with status := .retired, retireReason := reason },
    s.rows.any fun r => decide (r.id = id ∧ r.status = .active))

/-- What `review_lesson` is called with; `p_value` and the confidence that comes
of it decide nothing here. -/
structure Review where
  supported : Bool
  sampleSize : ℕ
  effectR : Dec
  nowNs : ℤ
  maxContradictions : ℤ := 2

inductive ReviewAnswer where
  | missing
  | confirmed
  | contradicted
  | retired
  deriving DecidableEq

namespace Review

variable (x : Review) (r : LessonRow)

def reversed : Bool :=
  decide (r.effectR ≠ 0 ∧ x.effectR ≠ 0 ∧ (0 < r.effectR ↔ ¬0 < x.effectR))

/-- What happens to an active lesson. -/
def answer : ReviewAnswer :=
  if x.supported && !x.reversed r then .confirmed
  else if x.reversed r || decide (x.maxContradictions ≤ r.contradictionCount + 1) then .retired
  else .contradicted

def revise : LessonRow :=
  let contradictions := r.contradictionCount + 1
  match x.answer r with
  | .confirmed =>
      { r with
        lastConfirmedNs := x.nowNs
        reviewCount := r.reviewCount + 1
        sampleSize := r.sampleSize + x.sampleSize
        effectR := x.effectR }
  | .retired =>
      { r with
        status := .retired
        contradictionCount := contradictions
        retireReason :=
          if x.reversed r then "the effect reversed sign on fresh evidence"
          else s!"contradicted by fresh evidence {contradictions} times" }
  | .contradicted => { r with contradictionCount := contradictions }
  | .missing => r

@[simp] theorem id_revise : (x.revise r).id = r.id := by
  rw [revise]
  split <;> rfl

end Review

def reviewLesson (s : LessonStore) (id : ℕ) (x : Review) : LessonStore × ReviewAnswer :=
  match s.rows.find? fun r => decide (r.id = id ∧ r.status = .active) with
  | none => (s, .missing)
  | some r => (s.update (fun q => decide (q.id = id)) x.revise x.id_revise, x.answer r)

def expireUnconfirmed (s : LessonStore) (cutoff : ℤ) (reason : String) : LessonStore :=
  s.update
    (fun r => decide (r.status = .active ∧
      (if 0 < r.lastConfirmedNs then r.lastConfirmedNs else r.createdNs) < cutoff))
    fun r => { r with status := .retired, retireReason := reason }

end LessonStore

/-! ## Runs -/

inductive LessonMove where
  | add (l : Lesson)
  | retire (id : ℕ) (reason : String)
  | review (id : ℕ) (x : LessonStore.Review)
  | expire (cutoff : ℤ) (reason : String)

structure LessonLedger where
  store : LessonStore := {}
  decided : List LessonKey := []

namespace LessonLedger

def activeKeys (s : LessonStore) (id : ℕ) : List LessonKey :=
  (s.rows.filter fun r => decide (r.id = id ∧ r.status = .active)).map (·.key)

def step (b : LessonLedger) : LessonMove → LessonLedger
  | .add l => { b with store := (b.store.addLesson l).1 }
  | .retire id reason =>
      { store := (b.store.retire id reason).1, decided := b.decided ++ activeKeys b.store id }
  | .review id x =>
      let (store, answer) := b.store.reviewLesson id x
      { store
        decided := if answer = .retired then b.decided ++ activeKeys b.store id else b.decided }
  | .expire cutoff reason => { b with store := b.store.expireUnconfirmed cutoff reason }

structure Kept (b : LessonLedger) (m : LessonMove) : Prop where
  once : ∀ r ∈ (b.step m).store.rows, ∀ r' ∈ (b.step m).store.rows, r.status = .active →
    r'.status = .active → r.key = r'.key → r = r'
  decided : ∀ r ∈ (b.step m).store.rows, r.key ∈ (b.step m).decided → r.status ≠ .active
  counted : ∀ l, m = .add l → ∀ p, b.store.prior l.key = some p →
    ∀ r ∈ (b.step m).store.rows, r.key = l.key → r.status = .active →
      p.contradictionCount ≤ r.contradictionCount

/-- A lesson is minted soundly over the row that stands: with the
contradictions of an active one, and not over a decided one whose reason does
not show it. -/
def MintsSoundly (b : LessonLedger) (m : LessonMove) : Prop :=
  ∀ l, m = .add l → ∀ p, b.store.prior l.key = some p →
    (p.status = .active → p.contradictionCount ≤ l.contradictionCount) ∧
    (p.status = .retired → p.key ∈ b.decided → p.blocks = true)

end LessonLedger

/-! ## What each call does to the rows -/

namespace LessonStore

theorem mem_update {s : LessonStore} {p : LessonRow → Bool} {f : LessonRow → LessonRow}
    (hid : ∀ r, (f r).id = r.id) {r' : LessonRow} :
    r' ∈ (s.update p f hid).rows ↔ ∃ r ∈ s.rows, (if p r then f r else r) = r' :=
  List.mem_map

variable (s : LessonStore)

theorem eq_of_id {r r' : LessonRow} (hr : r ∈ s.rows) (hr' : r' ∈ s.rows)
    (hid : r.id = r'.id) : r = r' := by
  have hnodup : (s.rows.map LessonRow.id).Nodup := s.ascending.imp fun h => h.ne
  exact List.inj_on_of_nodup_map hnodup hr hr' hid

structure Settles (s s' : LessonStore) (f : LessonRow → LessonRow) : Prop where
  rows : s'.rows = s.rows.map f
  key : ∀ r, (f r).key = r.key
  standing : ∀ r, (f r).standing = r.standing
  retired : ∀ r, r.status = .retired → (f r).status = .retired

theorem settles_update {p : LessonRow → Bool} {f : LessonRow → LessonRow}
    (hid : ∀ r, (f r).id = r.id) (hkey : ∀ r, (f r).key = r.key)
    (hp : ∀ r ∈ s.rows, p r = true → r.status = .active)
    (hf : ∀ r, (f r).status = r.status ∨ (f r).status = .retired) :
    s.Settles (s.update p f hid)
      fun r => if p r && decide (r.status = .active) then f r else r := by
  constructor
  · apply List.map_congr_left
    intro r hr
    by_cases hpr : p r = true
    · simp [hpr, hp r hr hpr]
    · simp [hpr]
  · intro r
    split_ifs
    · exact hkey r
    · rfl
  · intro r
    split_ifs with h
    · have hactive : r.status = .active := by
        rw [Bool.and_eq_true, decide_eq_true_iff] at h
        exact h.2
      rcases hf r with hsame | hretired
      · simp [LessonRow.standing, hsame]
      · simp [LessonRow.standing, hretired, hactive]
    · rfl
  · intro r hretired
    rw [if_neg (by simp [hretired])]
    exact hretired

theorem settles_retire (id : ℕ) (reason : String) :
    ∃ f, s.Settles (s.retire id reason).1 f ∧
      ∀ r, r.id = id → r.status = .active → (f r).status = .retired := by
  refine ⟨_, settles_update s (p := fun r => decide (r.id = id ∧ r.status = .active))
    (f := fun r => { r with status := .retired, retireReason := reason }) ?_ ?_ ?_ ?_, ?_⟩
  · exact fun r => rfl
  · exact fun r => rfl
  · intro r _ h
    exact (of_decide_eq_true h).2
  · exact fun r => .inr rfl
  · intro r hid hactive
    rw [if_pos (by simp [hid, hactive])]

theorem settles_expire (cutoff : ℤ) (reason : String) :
    ∃ f, s.Settles (s.expireUnconfirmed cutoff reason) f := by
  constructor
  apply settles_update
  · exact fun r => rfl
  · intro r _ h
    exact (of_decide_eq_true h).1
  · exact fun r => .inr rfl

theorem Review.key_revise (x : Review) (r : LessonRow) : (x.revise r).key = r.key := by
  rw [revise]
  split <;> rfl

theorem Review.status_revise (x : Review) (r : LessonRow) :
    (x.revise r).status = if x.answer r = .retired then .retired else r.status := by
  rw [revise]
  split <;> simp [*]

theorem settles_review (id : ℕ) (x : Review) :
    ∃ f, s.Settles (s.reviewLesson id x).1 f ∧ ((s.reviewLesson id x).2 = .retired →
      ∀ r ∈ s.rows, r.id = id → r.status = .active → (f r).status = .retired) := by
  rw [reviewLesson]
  split
  · refine ⟨fun r => r, ⟨(List.map_id _).symm, fun r => rfl, fun r => rfl, fun r h => h⟩, ?_⟩
    intro hanswer
    cases hanswer
  · rename_i r hfound
    have hr := List.mem_of_find?_eq_some hfound
    have hactive : r.id = id ∧ r.status = .active := by simpa using List.find?_some hfound
    have honly : ∀ q ∈ s.rows, q.id = id → q = r := by
      intro q hq hid
      exact s.eq_of_id hq hr (hid.trans hactive.1.symm)
    refine ⟨_, s.settles_update x.id_revise x.key_revise ?_ ?_, ?_⟩
    · intro q hq hid
      rw [honly q hq (of_decide_eq_true hid)]
      exact hactive.2
    · intro q
      rw [x.status_revise]
      split_ifs
      · exact .inr rfl
      · exact .inl rfl
    · intro hanswer q hq hid hstatus
      rw [if_pos (by simp [hid, hstatus]), x.status_revise, honly q hq hid, if_pos hanswer]

/-! ### What stands under a key -/

theorem prior_eq_none {s : LessonStore} {k : LessonKey} (h : s.prior k = none) :
    ∀ r ∈ s.rows, r.key = k → r.standing = false := by
  intro r hr hkey
  rw [prior, Option.or_eq_none_iff, List.getLast?_eq_none_iff, List.getLast?_eq_none_iff,
    List.filter_eq_nil_iff, List.filter_eq_nil_iff] at h
  have hmem : r ∈ s.rows.filter fun r => decide (r.key = k) :=
    List.mem_filter.2 ⟨hr, decide_eq_true hkey⟩
  have hactive := h.1 r hmem
  have hretired := h.2 r hmem
  simp only [decide_eq_true_eq] at hactive hretired
  simp [LessonRow.standing, hactive, hretired]

theorem prior_eq_some {s : LessonStore} {k : LessonKey} {p : LessonRow} (h : s.prior k = some p) :
    p ∈ s.rows ∧ p.key = k ∧ p.standing = true := by
  rw [prior, Option.or_eq_some_iff] at h
  rcases h with hactive | ⟨-, hretired⟩
  · have hmem := List.mem_filter.1 (List.mem_of_getLast? hactive)
    obtain ⟨hrow, hkey⟩ := List.mem_filter.1 hmem.1
    refine ⟨hrow, of_decide_eq_true hkey, ?_⟩
    simp [LessonRow.standing, of_decide_eq_true hmem.2]
  · have hmem := List.mem_filter.1 (List.mem_of_getLast? hretired)
    obtain ⟨hrow, hkey⟩ := List.mem_filter.1 hmem.1
    refine ⟨hrow, of_decide_eq_true hkey, ?_⟩
    simp [LessonRow.standing, of_decide_eq_true hmem.2]

theorem mem_insert {s : LessonStore} {l : Lesson} {r : LessonRow} :
    r ∈ (s.insert l).rows ↔ r ∈ s.rows ∨ r = { l with id := s.nextId } := by
  rw [insert, List.mem_append, List.mem_singleton]

structure IsMinted (r : LessonRow) (l : Lesson) : Prop where
  key : r.key = l.key
  status : r.status = .active
  count : r.contradictionCount = l.contradictionCount

theorem mem_mint (l : Lesson) (prior : Option LessonRow)
    (hprior : ∀ p ∈ prior, p ∈ s.rows) : ∃ new, IsMinted new l ∧ ∀ r,
      r ∈ (s.mint l prior).rows ↔
        r = new ∨ (∃ p ∈ prior, r = supersede s.nextId p) ∨ r ∈ s.rows ∧ prior ≠ some r := by
  refine ⟨{ l.stamped with id := s.nextId }, ⟨rfl, rfl, rfl⟩, ?_⟩
  intro r
  cases prior with
  | none =>
      rw [mint, mem_insert]
      simp [or_comm]
  | some p =>
      have hp : p ∈ s.rows := hprior p rfl
      have hfresh : ¬s.nextId = p.id := (s.below p hp).ne'
      refine (mem_update (id_supersede s.nextId)).trans ?_
      simp only [mem_insert, decide_eq_true_eq, Option.mem_some_iff, exists_eq_left']
      constructor
      · rintro ⟨q, hq | rfl, rfl⟩
        · by_cases hid : q.id = p.id
          · rw [if_pos hid, s.eq_of_id hq hp hid]
            exact .inr (.inl rfl)
          · rw [if_neg hid]
            refine .inr (.inr ⟨hq, ?_⟩)
            intro hsame
            exact hid (congrArg LessonRow.id (Option.some.inj hsame)).symm
        · rw [if_neg hfresh]
          exact .inl rfl
      · rintro (rfl | rfl | ⟨hr, hne⟩)
        · exact ⟨_, .inr rfl, if_neg hfresh⟩
        · exact ⟨p, .inl hp, if_pos rfl⟩
        · refine ⟨r, .inl hr, if_neg ?_⟩
          intro hid
          exact hne (congrArg some (s.eq_of_id hr hp hid).symm)

theorem addLesson_cases (l : Lesson) :
    (∃ p, s.prior l.key = some p ∧ p.status = .retired ∧ p.blocks = true ∧
      (s.addLesson l).1 = s) ∨
    ∃ l', (s.addLesson l).1 = s.mint l' (s.prior l.key) ∧ l'.key = l.key ∧
      ∀ p, s.prior l.key = some p →
        (p.status = .retired → p.blocks = false ∧ p.contradictionCount ≤ l'.contradictionCount) ∧
        (p.status ≠ .retired → l'.contradictionCount = l.contradictionCount) := by
  rw [addLesson]
  split
  · rename_i hp
    refine .inr ⟨l, by rw [hp], rfl, ?_⟩
    intro p hsome
    cases hp.symm.trans hsome
  · rename_i p hp
    split_ifs with hretired hblocks
    · exact .inl ⟨p, hp, hretired, hblocks, rfl⟩
    · refine .inr ⟨{ l with contradictionCount := max l.contradictionCount p.contradictionCount },
        by rw [hp], rfl, ?_⟩
      intro q hq
      obtain rfl : p = q := Option.some.inj (hp.symm.trans hq)
      refine ⟨fun _ => ⟨Bool.eq_false_iff.2 hblocks, le_max_right _ _⟩, ?_⟩
      intro hactive
      exact absurd hretired hactive
    · refine .inr ⟨l, by rw [hp], rfl, ?_⟩
      intro q hq
      obtain rfl : p = q := Option.some.inj (hp.symm.trans hq)
      exact ⟨fun h => absurd h hretired, fun _ => rfl⟩

/-! ### One standing row for a key -/

def StandsOnce : Prop :=
  ∀ r ∈ s.rows, ∀ r' ∈ s.rows, r.standing = true → r'.standing = true → r.key = r'.key → r = r'

theorem StandsOnce.eq_prior {s : LessonStore} (h : s.StandsOnce) {k : LessonKey} {p r : LessonRow}
    (hp : s.prior k = some p) (hr : r ∈ s.rows) (hkey : r.key = k) (hs : r.standing = true) :
    r = p := by
  obtain ⟨hrow, hpkey, hps⟩ := prior_eq_some hp
  exact h r hr p hrow hs hps (hkey.trans hpkey.symm)

theorem StandsOnce.settled {s s' : LessonStore} {f : LessonRow → LessonRow} (h : s.StandsOnce)
    (hf : s.Settles s' f) : s'.StandsOnce := by
  rw [StandsOnce, hf.rows]
  intro r₁ hr₁ r₂ hr₂ hs₁ hs₂ hkey
  obtain ⟨q₁, hq₁, rfl⟩ := List.mem_map.1 hr₁
  obtain ⟨q₂, hq₂, rfl⟩ := List.mem_map.1 hr₂
  rw [hf.standing] at hs₁ hs₂
  rw [hf.key, hf.key] at hkey
  rw [h q₁ hq₁ q₂ hq₂ hs₁ hs₂ hkey]

theorem StandsOnce.minted {s : LessonStore} (h : s.StandsOnce) (l : Lesson) :
    (s.mint l (s.prior l.key)).StandsOnce := by
  obtain ⟨new, hnew, hrows⟩ := s.mem_mint l (s.prior l.key) fun p hp => (prior_eq_some hp).1
  -- a row that stands afterwards is the new one, or an old one under another key
  have hstands : ∀ r ∈ (s.mint l (s.prior l.key)).rows, r.standing = true →
      r = new ∨ r ∈ s.rows ∧ r.key ≠ new.key := by
    intro r hr hs
    rcases (hrows r).1 hr with rfl | ⟨p, -, rfl⟩ | ⟨hold, hne⟩
    · exact .inl rfl
    · simp [supersede, LessonRow.standing] at hs
    · refine .inr ⟨hold, ?_⟩
      intro hsame
      have hrkey : r.key = l.key := hsame.trans hnew.key
      cases hp : s.prior l.key with
      | none =>
          rw [prior_eq_none hp r hold hrkey] at hs
          cases hs
      | some p => exact hne (hp.trans (congrArg some (h.eq_prior hp hold hrkey hs).symm))
  intro r hr r' hr' hs hs' hrr
  rcases hstands r hr hs with rfl | ⟨hold, hother⟩
  · rcases hstands r' hr' hs' with rfl | ⟨-, hother'⟩
    · rfl
    · exact absurd hrr.symm hother'
  · rcases hstands r' hr' hs' with rfl | ⟨hold', -⟩
    · exact absurd hrr hother
    · exact h r hold r' hold' hs hs' hrr

end LessonStore

/-! ## One active lesson, decisions and counts -/

namespace LessonLedger

/-- At most one row stands under a key, and it is a retired one when the key is
decided. -/
structure Sound (b : LessonLedger) : Prop where
  once : b.store.StandsOnce
  decided : ∀ k ∈ b.decided, ∃ r ∈ b.store.rows, r.key = k ∧ r.status = .retired

theorem sound_new : Sound {} where
  once := by simp [LessonStore.StandsOnce]
  decided := by simp

theorem standsOnce_step {b : LessonLedger} (h : b.store.StandsOnce) (m : LessonMove) :
    (b.step m).store.StandsOnce := by
  cases m with
  | add l =>
      rcases b.store.addLesson_cases l with ⟨p, -, -, -, hsame⟩ | ⟨l', hmint, hkey, -⟩
      · rw [LessonLedger.step, hsame]
        exact h
      · rw [LessonLedger.step, hmint, ← hkey]
        exact h.minted l'
  | retire id reason =>
      obtain ⟨f, hf, -⟩ := b.store.settles_retire id reason
      exact h.settled hf
  | review id x =>
      obtain ⟨f, hf, -⟩ := b.store.settles_review id x
      exact h.settled hf
  | expire cutoff reason =>
      obtain ⟨f, hf⟩ := b.store.settles_expire cutoff reason
      exact h.settled hf

theorem Sound.settled {b b' : LessonLedger} {f : LessonRow → LessonRow} (h : b.Sound)
    (hf : b.store.Settles b'.store f)
    (hdecided : ∀ k ∈ b'.decided, k ∈ b.decided ∨
      ∃ r ∈ b.store.rows, r.key = k ∧ (f r).status = .retired) :
    b'.Sound := by
  refine ⟨h.once.settled hf, ?_⟩
  rw [hf.rows]
  intro k hk
  rcases hdecided k hk with hold | ⟨r, hr, hkey, hretired⟩
  · obtain ⟨r, hr, hkey, hretired⟩ := h.decided k hold
    exact ⟨f r, List.mem_map_of_mem hr, (hf.key r).trans hkey, hf.retired r hretired⟩
  · exact ⟨f r, List.mem_map_of_mem hr, (hf.key r).trans hkey, hretired⟩

theorem exists_of_mem_activeKeys {s : LessonStore} {id : ℕ} {k : LessonKey}
    (h : k ∈ activeKeys s id) : ∃ r ∈ s.rows, r.key = k ∧ r.id = id ∧ r.status = .active := by
  obtain ⟨r, hr, hkey⟩ := List.mem_map.1 h
  obtain ⟨hrow, hactive⟩ := List.mem_filter.1 hr
  exact ⟨r, hrow, hkey, of_decide_eq_true hactive⟩

theorem Sound.step {b : LessonLedger} (h : b.Sound) {m : LessonMove} (hm : b.MintsSoundly m) :
    (b.step m).Sound := by
  cases m with
  | add l =>
      rcases b.store.addLesson_cases l with ⟨p, -, -, -, hsame⟩ | ⟨l', hmint, hkey, hover⟩
      · rw [LessonLedger.step, hsame]
        exact h
      · refine ⟨standsOnce_step h.once (.add l), ?_⟩
        obtain ⟨new, -, hrows⟩ := b.store.mem_mint l' (b.store.prior l.key) fun p hp =>
          (LessonStore.prior_eq_some hp).1
        intro k hk
        obtain ⟨r, hr, rfl, hretired⟩ := h.decided k hk
        rw [LessonLedger.step, hmint]
        refine ⟨r, (hrows r).2 (.inr (.inr ⟨hr, ?_⟩)), rfl, hretired⟩
        intro hp
        have hblocks := (hm l rfl r hp).2 hretired hk
        rw [((hover r hp).1 hretired).1] at hblocks
        cases hblocks
  | retire id reason =>
      obtain ⟨f, hf, hnew⟩ := b.store.settles_retire id reason
      refine h.settled hf ?_
      intro k hk
      rcases List.mem_append.1 hk with hold | hactive
      · exact .inl hold
      · obtain ⟨r, hr, hkey, hid, hstatus⟩ := exists_of_mem_activeKeys hactive
        exact .inr ⟨r, hr, hkey, hnew r hid hstatus⟩
  | review id x =>
      obtain ⟨f, hf, hnew⟩ := b.store.settles_review id x
      refine h.settled hf ?_
      intro k hk
      change k ∈ (if (b.store.reviewLesson id x).2 = .retired then
        b.decided ++ activeKeys b.store id else b.decided) at hk
      split_ifs at hk with hanswer
      · rcases List.mem_append.1 hk with hold | hactive
        · exact .inl hold
        · obtain ⟨r, hr, hkey, hid, hstatus⟩ := exists_of_mem_activeKeys hactive
          exact .inr ⟨r, hr, hkey, hnew hanswer r hr hid hstatus⟩
      · exact .inl hk
  | expire cutoff reason =>
      obtain ⟨f, hf⟩ := b.store.settles_expire cutoff reason
      exact h.settled hf fun k hk => .inl hk

theorem Sound.kept_iff {b : LessonLedger} (h : b.Sound) (m : LessonMove) :
    b.Kept m ↔ b.MintsSoundly m := by
  constructor
  · intro hkept l hl p hp
    subst hl
    rcases b.store.addLesson_cases l with ⟨q, hq, hretired, hblocks, -⟩ | ⟨l', hmint, hkey, hover⟩
    · obtain rfl : p = q := Option.some.inj (hp.symm.trans hq)
      refine ⟨?_, fun _ _ => hblocks⟩
      intro hactive
      rw [hretired] at hactive
      cases hactive
    · have hstep : (b.step (.add l)).store = b.store.mint l' (b.store.prior l.key) := hmint
      obtain ⟨new, hnew, hrows⟩ := b.store.mem_mint l' (b.store.prior l.key) fun q hq =>
        (LessonStore.prior_eq_some hq).1
      have hmem : new ∈ (b.step (.add l)).store.rows := by
        rw [hstep]
        exact (hrows new).2 (.inl rfl)
      have hnewkey : new.key = l.key := hnew.key.trans hkey
      constructor
      · intro hactive
        have hcount := hkept.counted l rfl p hp new hmem hnewkey hnew.status
        have hne : p.status ≠ .retired := by
          rw [hactive]
          exact LessonStatus.noConfusion
        rw [hnew.count, (hover p hp).2 hne] at hcount
        exact hcount
      · intro _ hk
        refine absurd hnew.status (hkept.decided new hmem ?_)
        rw [hnewkey, ← (LessonStore.prior_eq_some hp).2.1]
        exact hk
  · intro hm
    have hstep := h.step hm
    constructor
    · intro r hr r' hr' hs hs' hkey
      apply hstep.once r hr r' hr'
      · simp [LessonRow.standing, hs]
      · simp [LessonRow.standing, hs']
      · exact hkey
    · intro r hr hk hactive
      obtain ⟨q, hq, hkey, hretired⟩ := hstep.decided r.key hk
      have hsame : q = r := by
        apply hstep.once q hq r hr
        · simp [LessonRow.standing, hretired]
        · simp [LessonRow.standing, hactive]
        · exact hkey
      rw [hsame, hactive] at hretired
      cases hretired
    · intro l hl p hp r hr hkey hactive
      subst hl
      have hs : r.standing = true := by simp [LessonRow.standing, hactive]
      rcases b.store.addLesson_cases l with ⟨q, hq, hretired, -, hsame⟩ | ⟨l', hmint, -, hover⟩
      · rw [LessonLedger.step, hsame] at hr
        rw [h.once.eq_prior hp hr hkey hs]
      · have hstep : (b.step (.add l)).store = b.store.mint l' (b.store.prior l.key) := hmint
        obtain ⟨new, hnew, hrows⟩ := b.store.mem_mint l' (b.store.prior l.key) fun q hq =>
          (LessonStore.prior_eq_some hq).1
        rw [hstep] at hr
        rcases (hrows r).1 hr with rfl | ⟨q, -, rfl⟩ | ⟨hold, hne⟩
        · rw [hnew.count]
          by_cases hretired : p.status = .retired
          · exact ((hover p hp).1 hretired).2
          · rw [(hover p hp).2 hretired]
            have hstands := (LessonStore.prior_eq_some hp).2.2
            apply (hm l rfl p hp).1
            simpa [LessonRow.standing, hretired] using hstands
        · cases hactive
        · exact absurd (hp.trans (congrArg some (h.once.eq_prior hp hold hkey hs).symm)) hne

/-- In runs of any length: one active lesson for a key, none for a decided key
and no count lost, exactly when no lesson is minted over a decided row whose
reason does not show it, nor over more contradictions than it brings. -/
theorem lessonsKept_run_iff (ms : List LessonMove) :
    Along LessonLedger.step Kept {} ms ↔ Along LessonLedger.step MintsSoundly {} ms := by
  apply Along.iff_of_kept (I := Sound)
  · intro b m h hkept
    exact h.step ((h.kept_iff m).1 hkept)
  · intro b m h
    exact h.kept_iff m
  · exact sound_new

/-- There is never more than one active lesson for a key. -/
theorem once_run (ms : List LessonMove) :
    (ms.foldl LessonLedger.step {}).store.StandsOnce := by
  induction ms using List.reverseRecOn with
  | nil => exact sound_new.once
  | append_singleton ms m ih =>
      rw [List.foldl_append]
      exact standsOnce_step ih m

/-- A lesson that an operator retires in words of his own comes back. -/
theorem not_kept_reworded : ¬Along LessonLedger.step Kept {}
    [.add { statement := "avoid the open" }, .retire 1 "no longer relevant",
      .add { statement := "avoid the open" }] := by
  intro h
  -- the row of the second mint is active, and its key was decided
  exact h.2.2.1.decided { statement := "avoid the open", id := 2 }
    (List.mem_cons_of_mem _ (.head _)) (by decide) rfl

end LessonLedger

end Sentinel
