import Sentinel.Agent.Lessons
import Sentinel.Support.Shortlist

/-!
# The caution of lessons

The lessons that apply are recalled, the most confident first and no more than twelve,
and their cautions multiplied.  A lesson that is added may take the place of another:
of its own earlier version, or of the last of the twelve.
-/

namespace Sentinel

structure LessonCaution where
  session : Option String := none
  pValue : Dec
  caution : Dec := 1
  halfLifeDays : Dec := 90

structure CautionColumns extends LessonCaution where
  confidence : Dec

/-- A row of `lessons` with all that `recall` reads. -/
structure LessonEntry where
  row : LessonRow
  columns : CautionColumns

structure LessonMemory where
  store : LessonStore := {}
  columns : ℕ → CautionColumns

/-- The order in which the database gives rows that its `ORDER BY` does not tell
apart. -/
structure ScanOrder where
  le : LessonRow → LessonRow → Prop
  decidableLe : DecidableRel le
  total : ∀ r s, le r s ∨ le s r
  trans : ∀ r s t, le r s → le s t → le r t
  antisymm : ∀ r s, le r s → le s r → r.id = s.id

def ScanOrder.byId : ScanOrder where
  le r s := r.id ≤ s.id
  decidableLe _ _ := inferInstance
  total r s := le_total r.id s.id
  trans _ _ _ := le_trans
  antisymm _ _ := le_antisymm

/-- `0.5 ** x` and `math.log10`. -/
structure CautionMath where
  halfPower : Dec → Dec
  log10 : ℕ → Dec
  halfPower_nonneg : ∀ x, 0 ≤ x → 0 ≤ halfPower x
  halfPower_le_one : ∀ x, 0 ≤ x → halfPower x ≤ 1
  log10_nonneg : ∀ n, 1 ≤ n → 0 ≤ log10 n

/-- What a decision is taken for. -/
structure LessonScope where
  strategy : Option String := none
  instrument : Option String := none
  regime : Option String := none

/-- `column IS NULL OR column = ?`. -/
def columnMatches (column asked : Option String) : Bool :=
  column = none || column = asked

/-! ## One lesson -/

/-- The clamp of `__post_init__`. -/
def clampCaution (caution : Dec) : Dec := min 1 (max (1 / 4) caution)

/-- `confidence`: from the sample and its significance, to four places. -/
def lessonConfidence (math : CautionMath) (sampleSize : ℕ) (pValue : Dec) : Dec :=
  let nTerm := min 1 (math.log10 (max 1 sampleSize) / (5 / 2))
  let pTerm := max 0 (min 1 (1 - pValue / (1 / 20)))
  quantize (nTerm * pTerm) (1 / 10000)

namespace LessonEntry

def ageDays (e : LessonEntry) (now : ℤ) : Dec :=
  let confirmed := if e.row.lastConfirmedNs = 0 then e.row.createdNs else e.row.lastConfirmedNs
  max 0 ((now - confirmed : ℤ) / 86400000000000)

variable (math : CautionMath)

def effectiveCaution (now : ℤ) (e : LessonEntry) : Dec :=
  let caution := clampCaution e.columns.caution
  if 1 ≤ caution then 1
  else min 1 (1 - (1 - caution) * math.halfPower (e.ageDays now / max 1 e.columns.halfLifeDays))

def confidence (e : LessonEntry) : Dec :=
  lessonConfidence math e.row.sampleSize e.columns.pValue

def weight (now : ℤ) (e : LessonEntry) : Dec :=
  let decayed := e.effectiveCaution math now
  if 1 ≤ decayed then 1 else 1 - (1 - decayed) * e.confidence math

/-- The `WHERE` clause of `recall`; no session is asked for. -/
def applies (c : LessonScope) (e : LessonEntry) : Bool :=
  e.row.status = .active && columnMatches e.row.strategy c.strategy &&
    columnMatches e.row.instrument c.instrument && columnMatches e.row.regime c.regime &&
    columnMatches e.columns.session none

/-- `ORDER BY confidence DESC, sample_size DESC`, and then as the rows are found. -/
def Before (o : ScanOrder) (x y : LessonEntry) : Prop :=
  y.columns.confidence < x.columns.confidence ∨ x.columns.confidence = y.columns.confidence ∧
    (y.row.sampleSize < x.row.sampleSize ∨ x.row.sampleSize = y.row.sampleSize ∧
      o.le x.row y.row)

instance (o : ScanOrder) : DecidableRel (Before o) := fun x y =>
  have := o.decidableLe x.row y.row
  inferInstanceAs (Decidable (_ ∨ _))

end LessonEntry

namespace LessonMemory

def table (m : LessonMemory) : List LessonEntry :=
  m.store.rows.map fun r => ⟨r, m.columns r.id⟩

def ranked (o : ScanOrder) (m : LessonMemory) (c : LessonScope) : List LessonEntry :=
  (m.table.filter (LessonEntry.applies c)).insertionSort (LessonEntry.Before o)

/-- `recall`. -/
def recallLessons (o : ScanOrder) (m : LessonMemory) (c : LessonScope) (limit : ℕ) :
    List LessonEntry :=
  (m.ranked o c).take limit

structure Reason where
  statement : String
  weighted : Dec
  unconfirmedDays : Option Dec

def weigh (math : CautionMath) (now : ℤ) (sofar : Dec × List Reason) (e : LessonEntry) :
    Dec × List Reason :=
  let decayed := e.effectiveCaution math now
  if 1 ≤ decayed then sofar
  else
    let weighted := 1 - (1 - decayed) * e.confidence math
    let age := e.ageDays now
    (sofar.1 * weighted, sofar.2 ++ [⟨e.row.statement, weighted,
      if e.columns.halfLifeDays < age then some age else none⟩])

def cautionMultiplier (o : ScanOrder) (math : CautionMath) (m : LessonMemory) (c : LessonScope)
    (floor : Dec) (now : ℤ) : Dec × List Reason :=
  let (multiplier, reasons) := (m.recallLessons o c 12).foldl (weigh math now) (1, [])
  (max floor (quantize multiplier (1 / 10000)), reasons)

def columnsOf (math : CautionMath) (l : Lesson) (x : LessonCaution) : CautionColumns :=
  { x with
    caution := clampCaution x.caution
    confidence := lessonConfidence math l.sampleSize x.pValue }

/-- `add_lesson`: the row is written under the next id, unless a decided one stands (the
columns of an id without a row are not read). -/
def addLesson (math : CautionMath) (m : LessonMemory) (l : Lesson) (x : LessonCaution) :
    LessonMemory × ℕ :=
  let (store, id) := m.store.addLesson l
  ({ store
     columns := fun id => if id = m.store.nextId then columnsOf math l x else m.columns id }, id)

end LessonMemory

/-! ## Weights -/

variable {math : CautionMath} {o : ScanOrder}

theorem lessonConfidence_nonneg (sampleSize : ℕ) (pValue : Dec) :
    0 ≤ lessonConfidence math sampleSize pValue := by
  have hlog := math.log10_nonneg (max 1 sampleSize) (le_max_left _ _)
  have hn : 0 ≤ min 1 (math.log10 (max 1 sampleSize) / (5 / 2)) :=
    le_min zero_le_one (by positivity)
  have hp : 0 ≤ max 0 (min 1 (1 - pValue / (1 / 20))) := le_max_left _ _
  have hzero := quantize_mono (by norm_num : (0 : Dec) < 1 / 10000) (mul_nonneg hn hp)
  have hgrid := quantize_mul_self 0 (by norm_num : (0 : Dec) < 1 / 10000)
  rw [Int.cast_zero, zero_mul] at hgrid
  rwa [hgrid] at hzero

theorem quantize_le_one {q : Dec} (h : q ≤ 1) : quantize q (1 / 10000) ≤ 1 := by
  have hone := quantize_mono (by norm_num : (0 : Dec) < 1 / 10000) h
  have hgrid := quantize_mul_self 10000 (by norm_num : (0 : Dec) < 1 / 10000)
  rw [show ((10000 : ℤ) : Dec) * (1 / 10000) = 1 by norm_num] at hgrid
  rwa [hgrid] at hone

theorem lessonConfidence_le_one (sampleSize : ℕ) (pValue : Dec) :
    lessonConfidence math sampleSize pValue ≤ 1 := by
  have hlog := math.log10_nonneg (max 1 sampleSize) (le_max_left _ _)
  have hn : 0 ≤ min 1 (math.log10 (max 1 sampleSize) / (5 / 2)) :=
    le_min zero_le_one (by positivity)
  have hp : max 0 (min 1 (1 - pValue / (1 / 20))) ≤ 1 := max_le zero_le_one (min_le_left _ _)
  exact quantize_le_one (mul_le_one₀ (min_le_left _ _) (le_max_left _ _) hp)

namespace LessonEntry

variable (now : ℤ) (e : LessonEntry)

theorem effectiveCaution_pos : 0 < e.effectiveCaution math now := by
  have hlow : 1 / 4 ≤ clampCaution e.columns.caution :=
    le_min (by norm_num) (le_max_left _ _)
  have hage : 0 ≤ e.ageDays now / max 1 e.columns.halfLifeDays :=
    div_nonneg (le_max_left _ _) (zero_le_one.trans (le_max_left _ _))
  have hpower := math.halfPower_le_one _ hage
  rw [effectiveCaution]
  split_ifs with hone
  · exact one_pos
  · refine lt_min one_pos ?_
    have hless : 0 ≤ 1 - clampCaution e.columns.caution := by linarith
    have hdecay := mul_le_mul_of_nonneg_left hpower hless
    linarith

theorem weight_pos : 0 < e.weight math now := by
  have hcaution : 0 < e.effectiveCaution math now := effectiveCaution_pos now e
  rw [weight]
  split_ifs with hone
  · exact one_pos
  · have hless : 0 ≤ 1 - e.effectiveCaution math now := by linarith
    have hconf : lessonConfidence math e.row.sampleSize e.columns.pValue ≤ 1 :=
      lessonConfidence_le_one _ _
    have hshare := mul_le_mul_of_nonneg_left hconf hless
    rw [confidence]
    linarith

theorem weight_le_one : e.weight math now ≤ 1 := by
  rw [weight]
  split_ifs with hone
  · exact le_rfl
  · have hless : 0 ≤ 1 - e.effectiveCaution math now := by linarith
    have hconf : 0 ≤ lessonConfidence math e.row.sampleSize e.columns.pValue :=
      lessonConfidence_nonneg _ _
    have hshare := mul_nonneg hless hconf
    rw [confidence]
    linarith

instance : Std.Total (Before o) where
  total x y := by
    rw [Before, Before]
    rcases lt_trichotomy x.columns.confidence y.columns.confidence with h | h | h
    · exact Or.inr (Or.inl h)
    · rcases lt_trichotomy x.row.sampleSize y.row.sampleSize with h' | h' | h'
      · exact Or.inr (Or.inr ⟨h.symm, Or.inl h'⟩)
      · rcases o.total x.row y.row with hle | hle
        · exact Or.inl (Or.inr ⟨h, Or.inr ⟨h', hle⟩⟩)
        · exact Or.inr (Or.inr ⟨h.symm, Or.inr ⟨h'.symm, hle⟩⟩)
      · exact Or.inl (Or.inr ⟨h, Or.inl h'⟩)
    · exact Or.inl (Or.inl h)

instance : IsTrans LessonEntry (Before o) where
  trans x y z := by
    rintro (h | ⟨h, h' | ⟨h', hle⟩⟩) (k | ⟨k, k' | ⟨k', kle⟩⟩)
    · exact Or.inl (k.trans h)
    · exact Or.inl (k ▸ h)
    · exact Or.inl (k ▸ h)
    · exact Or.inl (h ▸ k)
    · exact Or.inr ⟨h.trans k, Or.inl (k'.trans h')⟩
    · exact Or.inr ⟨h.trans k, Or.inl (k' ▸ h')⟩
    · exact Or.inl (h ▸ k)
    · exact Or.inr ⟨h.trans k, Or.inl (h' ▸ k')⟩
    · exact Or.inr ⟨h.trans k, Or.inr ⟨h'.trans k', o.trans _ _ _ hle kle⟩⟩

theorem Before.antisymm {x y : LessonEntry} (h : Before o x y) (h' : Before o y x) :
    x.row.id = y.row.id := by
  rcases h with h | ⟨heq, h | ⟨hsize, hle⟩⟩
  · rcases h' with h' | ⟨heq', -⟩
    · exact absurd h' h.not_gt
    · exact absurd heq' h.ne
  · rcases h' with h' | ⟨-, h' | ⟨hsize', -⟩⟩
    · exact absurd heq h'.ne
    · exact absurd h' h.not_gt
    · exact absurd hsize' h.ne
  · rcases h' with h' | ⟨-, h' | ⟨-, hle'⟩⟩
    · exact absurd heq h'.ne
    · exact absurd hsize h'.ne
    · exact o.antisymm _ _ hle hle'

end LessonEntry

/-! ## The rows after a lesson is added -/

namespace LessonStore

variable (s : LessonStore) (l : Lesson)

def written (s : LessonStore) (l : Lesson) : Lesson :=
  match s.prior l.key with
  | some p =>
      if p.status = .retired then
        { l with contradictionCount := max l.contradictionCount p.contradictionCount }
      else l
  | none => l

def decided : Bool :=
  match s.prior l.key with
  | some p => p.status = .retired && p.blocks
  | none => false

theorem addLesson_eq :
    (s.addLesson l).1 =
      if s.decided l then s else s.mint (s.written l) (s.prior l.key) := by
  rcases hp : s.prior l.key with _ | p
  · simp [addLesson, decided, written, hp]
  · by_cases hretired : p.status = .retired
    · by_cases hblocks : p.blocks = true
      · simp [addLesson, decided, hp, hretired, hblocks]
      · simp [addLesson, decided, written, hp, hretired, hblocks]
    · simp [addLesson, decided, written, hp, hretired]

theorem rows_mint {prior : Option LessonRow}
    (h : ∀ p ∈ prior, p ∈ s.rows) :
    (s.mint l prior).rows =
      (s.rows.map fun r => if prior.map LessonRow.id = some r.id then supersede s.nextId r else r)
        ++ [{ l.stamped with id := s.nextId }] := by
  rcases prior with _ | p
  · simp [mint, insert]
  · have hfresh : s.nextId ≠ p.id := (s.below p (h p rfl)).ne'
    simp [mint, insert, update, hfresh, eq_comm (a := p.id)]

end LessonStore

namespace LessonMemory

theorem mem_table {m : LessonMemory} {e : LessonEntry} :
    e ∈ m.table ↔ e.row ∈ m.store.rows ∧ e.columns = m.columns e.row.id := by
  rw [table, List.mem_map]
  constructor
  · rintro ⟨r, hr, rfl⟩
    exact ⟨hr, rfl⟩
  · rintro ⟨hr, hcolumns⟩
    refine ⟨e.row, hr, ?_⟩
    rw [← hcolumns]

variable (o : ScanOrder) (m : LessonMemory) (c : LessonScope)

theorem nodup_table : (m.table.map fun e => e.row.id).Nodup := by
  rw [table, List.map_map]
  exact m.store.ascending.imp fun h => h.ne

variable (l : Lesson) (x : LessonCaution)

def leaving : Option LessonEntry :=
  ((m.store.prior l.key).map fun p => ⟨p, m.columns p.id⟩).filter (LessonEntry.applies c)

def entering (math : CautionMath) (m : LessonMemory) (c : LessonScope) (l : Lesson)
    (x : LessonCaution) : Option LessonEntry :=
  if m.store.decided l then none
  else
    (some ⟨{ (m.store.written l).stamped with id := m.store.nextId }, columnsOf math l x⟩).filter
      (LessonEntry.applies c)

def others : List LessonEntry :=
  ((m.table.filter (LessonEntry.applies c)).filter fun e =>
    (m.store.prior l.key).map LessonRow.id ≠ some e.row.id).insertionSort (LessonEntry.Before o)

theorem store_addLesson : (m.addLesson math l x).1.store = (m.store.addLesson l).1 := rfl

theorem columns_addLesson (id : ℕ) :
    (m.addLesson math l x).1.columns id =
      if id = m.store.nextId then columnsOf math l x else m.columns id := rfl

theorem filter_map_supersede (old : Option ℕ) (newId : ℕ)
    (l : List LessonEntry) :
    (l.map fun e => if old = some e.row.id then ⟨LessonStore.supersede newId e.row, e.columns⟩
        else e).filter (LessonEntry.applies c) =
      (l.filter (LessonEntry.applies c)).filter fun e => old ≠ some e.row.id := by
  induction l with
  | nil => rfl
  | cons e l ih =>
    rw [List.map_cons, List.filter_cons, ih, List.filter_cons]
    by_cases hold : old = some e.row.id
    · have hnot : LessonEntry.applies c ⟨LessonStore.supersede newId e.row, e.columns⟩ = false := by
        simp [LessonEntry.applies, LessonStore.supersede]
      rw [if_pos hold, hnot, if_neg Bool.false_ne_true]
      split_ifs with happlies
      · simp [hold]
      · rfl
    · rw [if_neg hold]
      split_ifs with happlies
      · simp [hold]
      · rfl

theorem filter_table_addLesson (h : m.store.decided l = false) :
    (m.addLesson math l x).1.table.filter (LessonEntry.applies c) =
      ((m.table.filter (LessonEntry.applies c)).filter fun e =>
        (m.store.prior l.key).map LessonRow.id ≠ some e.row.id) ++
        (m.entering math c l x).toList := by
  have hprior : ∀ p ∈ m.store.prior l.key, p ∈ m.store.rows := fun p hp =>
    (LessonStore.prior_eq_some hp).1
  have htable : (m.addLesson math l x).1.table =
      (m.table.map fun e =>
        if (m.store.prior l.key).map LessonRow.id = some e.row.id then
          ⟨LessonStore.supersede m.store.nextId e.row, e.columns⟩ else e) ++
        [⟨{ (m.store.written l).stamped with id := m.store.nextId }, columnsOf math l x⟩] := by
    rw [table, store_addLesson, m.store.addLesson_eq, h, if_neg Bool.false_ne_true,
      LessonStore.rows_mint _ _ hprior, List.map_append, table, List.map_map, List.map_map,
      List.map_singleton, columns_addLesson, if_pos rfl]
    congr 1
    refine List.map_congr_left fun r hr => ?_
    have hold : r.id ≠ m.store.nextId := (m.store.below r hr).ne
    simp only [Function.comp_apply, columns_addLesson]
    by_cases hid : (m.store.prior l.key).map LessonRow.id = some r.id
    · rw [if_pos hid, if_pos hid, LessonStore.id_supersede, if_neg hold]
    · rw [if_neg hid, if_neg hid, if_neg hold]
  rw [htable, List.filter_append, filter_map_supersede, entering, h]
  simp only [Bool.false_eq_true, if_false]
  rcases happlies : LessonEntry.applies c
    ⟨{ (m.store.written l).stamped with id := m.store.nextId }, columnsOf math l x⟩ with _ | _
  · simp [happlies, Option.filter]
  · simp [happlies, Option.filter]

theorem filter_table_id {p : LessonRow}
    (hp : p ∈ m.store.rows) :
    ((m.table.filter (LessonEntry.applies c)).filter fun e => some p.id = some e.row.id) =
      ((some ⟨p, m.columns p.id⟩ : Option LessonEntry).filter (LessonEntry.applies c)).toList := by
  have hmem : ⟨p, m.columns p.id⟩ ∈ m.table := mem_table.mpr ⟨hp, rfl⟩
  obtain ⟨before, after, hsplit⟩ := List.append_of_mem hmem
  have hnodup := m.nodup_table
  rw [hsplit, List.map_append, List.map_cons, List.nodup_append, List.nodup_cons] at hnodup
  obtain ⟨-, ⟨hafter, -⟩, hcross⟩ := hnodup
  have hids : ∀ e ∈ before ++ after, some p.id ≠ some e.row.id := by
    intro e he hid
    have hid := Option.some.inj hid
    rcases List.mem_append.mp he with hbefore | hlater
    · exact hcross _ (List.mem_map_of_mem hbefore) p.id List.mem_cons_self hid.symm
    · exact hafter (List.mem_map.mpr ⟨e, hlater, hid.symm⟩)
  have honly : m.table.filter (fun e => decide (some p.id = some e.row.id)) =
      [⟨p, m.columns p.id⟩] := by
    have hbefore : before.filter (fun e => decide (some p.id = some e.row.id)) = [] :=
      List.filter_eq_nil_iff.mpr fun e he =>
        of_decide_eq_false (by simpa using hids e (List.mem_append_left _ he))
    have hlater : after.filter (fun e => decide (some p.id = some e.row.id)) = [] :=
      List.filter_eq_nil_iff.mpr fun e he =>
        of_decide_eq_false (by simpa using hids e (List.mem_append_right _ he))
    rw [hsplit, List.filter_append, List.filter_cons_of_pos (by simp), hbefore, hlater,
      List.nil_append]
  rw [List.filter_comm, honly]
  rcases happlies : LessonEntry.applies c ⟨p, m.columns p.id⟩ with _ | _
  · simp [happlies, Option.filter]
  · simp [happlies, Option.filter]

theorem filter_table_perm :
    (m.table.filter (LessonEntry.applies c)).Perm
      ((m.leaving c l).toList ++ m.others o c l) := by
  refine List.Perm.trans ?_ (List.Perm.append_left _ (List.perm_insertionSort _ _).symm)
  rw [leaving]
  rcases hprior : m.store.prior l.key with _ | p
  · simp
  · have hp := (LessonStore.prior_eq_some hprior).1
    rw [Option.map_some, Option.map_some, ← m.filter_table_id c hp]
    simpa using (List.filter_append_perm (fun e : LessonEntry => decide (some p.id = some e.row.id))
      (m.table.filter (LessonEntry.applies c))).symm

theorem ranked_eq_of_perm
    {l : List LessonEntry} (hperm : (m.table.filter (LessonEntry.applies c)).Perm l)
    (hl : l.Pairwise (LessonEntry.Before o)) : m.ranked o c = l := by
  have hsort : (m.ranked o c).Perm (m.table.filter (LessonEntry.applies c)) :=
    List.perm_insertionSort _ _
  refine List.Perm.eq_of_pairwise ?_ (List.pairwise_insertionSort _ _) hl (hsort.trans hperm)
  intro x y hx hy hxy hyx
  have hx := (List.mem_filter.mp (hsort.mem_iff.mp hx)).1
  have hy := (List.mem_filter.mp (hperm.mem_iff.mpr hy)).1
  exact List.inj_on_of_nodup_map m.nodup_table hx hy (hxy.antisymm hyx)

theorem ranked_eq :
    m.ranked o c = Shortlist.enter (LessonEntry.Before o) (m.leaving c l) (m.others o c l) := by
  refine ranked_eq_of_perm o m c ?_ ?_
  · exact (m.filter_table_perm o c l).trans (Shortlist.enter_perm _ _ _).symm
  · exact Shortlist.pairwise_enter _ _ (List.pairwise_insertionSort _ _)

theorem ranked_addLesson :
    (m.addLesson math l x).1.ranked o c =
      Shortlist.enter (LessonEntry.Before o) (m.entering math c l x) (m.others o c l) := by
  rcases hdecided : m.store.decided l with _ | _
  · refine ranked_eq_of_perm o _ c ?_ ?_
    · rw [filter_table_addLesson m c l x hdecided]
      refine List.Perm.trans ?_ (Shortlist.enter_perm _ _ _).symm
      exact List.perm_append_comm.trans
        (List.Perm.append_left _ (List.perm_insertionSort _ _).symm)
    · exact Shortlist.pairwise_enter _ _ (List.pairwise_insertionSort _ _)
  · -- a decided row is retired: nothing leaves and nothing is added
    have htable : (m.addLesson math l x).1.table = m.table := by
      rw [table, store_addLesson, m.store.addLesson_eq, hdecided, if_pos rfl, table]
      refine List.map_congr_left fun r hr => ?_
      rw [columns_addLesson, if_neg (m.store.below r hr).ne]
    have hleaving : m.leaving c l = none := by
      rw [LessonStore.decided] at hdecided
      rw [leaving]
      rcases hprior : m.store.prior l.key with _ | p
      · rfl
      · rw [hprior] at hdecided
        have hretired : p.status = .retired := by
          simp only [Bool.and_eq_true, decide_eq_true_eq] at hdecided
          exact hdecided.1
        simp [Option.filter, LessonEntry.applies, hretired]
    rw [ranked, htable, entering, hdecided, if_pos rfl, ← hleaving]
    exact m.ranked_eq o c l

/-! ## The multiplier -/

def product (math : CautionMath) (m : LessonMemory) (c : LessonScope) (now : ℤ) : Dec :=
  ((m.recallLessons o c 12).map (LessonEntry.weight math now)).prod

theorem foldl_weigh (now : ℤ) (l : List LessonEntry) (acc : Dec × List Reason) :
    (l.foldl (weigh math now) acc).1 = acc.1 * (l.map (LessonEntry.weight math now)).prod := by
  induction l generalizing acc with
  | nil => rw [List.foldl_nil, List.map_nil, List.prod_nil, mul_one]
  | cons e l ih =>
    rw [List.foldl_cons, ih, List.map_cons, List.prod_cons, ← mul_assoc]
    congr 1
    rw [weigh, LessonEntry.weight]
    split_ifs
    · rw [mul_one]
    · rfl

theorem cautionMultiplier_eq (floor : Dec)
    (now : ℤ) :
    (m.cautionMultiplier o math c floor now).1 =
      max floor (quantize (m.product o math c now) (1 / 10000)) := by
  rw [cautionMultiplier, product]
  simp only
  rw [foldl_weigh, one_mul]

theorem product_le_one (now : ℤ) : m.product o math c now ≤ 1 := by
  rw [product]
  induction m.recallLessons o c 12 with
  | nil => exact le_rfl
  | cons e l ih =>
    rw [List.map_cons, List.prod_cons]
    exact mul_le_one₀ (e.weight_le_one now)
      (Shortlist.prod_pos (LessonEntry.weight_pos now) l).le ih

def share (o : ScanOrder) (math : CautionMath) (now : ℤ) (others : List LessonEntry)
    (e : Option LessonEntry) : Dec :=
  Shortlist.share (LessonEntry.Before o) (LessonEntry.weight math now) 12 others e

/-- The multiplier is between the floor and one, and a lesson that is added raises it only
where it has a larger share than the lesson that it supersedes. -/
theorem addLesson_caution (math : CautionMath) (m : LessonMemory)
    (l : Lesson) (x : LessonCaution) (c : LessonScope) (floor : Dec) (now : ℤ) :
    (floor ≤ (m.cautionMultiplier o math c floor now).1 ∧
      (m.cautionMultiplier o math c floor now).1 ≤ max floor 1) ∧
    (share o math now (m.others o c l) (m.entering math c l x) ≤
        share o math now (m.others o c l) (m.leaving c l) →
      ((m.addLesson math l x).1.cautionMultiplier o math c floor now).1 ≤
        (m.cautionMultiplier o math c floor now).1) ∧
    ((m.addLesson math l x).1.product o math c now ≤ m.product o math c now ↔
      share o math now (m.others o c l) (m.entering math c l x) ≤
        share o math now (m.others o c l) (m.leaving c l)) := by
  have hproduct : (m.addLesson math l x).1.product o math c now ≤ m.product o math c now ↔
      share o math now (m.others o c l) (m.entering math c l x) ≤
        share o math now (m.others o c l) (m.leaving c l) := by
    rw [product, product, recallLessons, recallLessons, m.ranked_addLesson, m.ranked_eq o c l]
    exact Shortlist.prod_take_enter_le_iff _ (LessonEntry.weight_pos now) 12 _ _ _
  refine ⟨⟨?_, ?_⟩, ?_, hproduct⟩
  · rw [cautionMultiplier_eq]
    exact le_max_left _ _
  · rw [cautionMultiplier_eq]
    exact max_le_max_left _ (quantize_le_one (m.product_le_one o c now))
  · intro hshare
    rw [cautionMultiplier_eq, cautionMultiplier_eq]
    exact max_le_max_left _ (quantize_mono (by norm_num) (hproduct.mpr hshare))

def decimalMath : CautionMath where
  halfPower x := if x = 0 then 1 else 0
  log10 n := if 1000 ≤ n then 3 else if 100 ≤ n then 2 else if 10 ≤ n then 1 else 0
  halfPower_nonneg x _ := by split_ifs <;> norm_num
  halfPower_le_one x _ := by split_ifs <;> norm_num
  log10_nonneg n _ := by split_ifs <;> norm_num

def neutralLesson (statement : String) : Lesson :=
  { statement := statement, sampleSize := 1000, createdNs := 1 }

def strongMemory : LessonMemory :=
  (({ columns := fun _ => { pValue := 0, confidence := 0 } } : LessonMemory).addLesson decimalMath
    { statement := "losses cluster", sampleSize := 100, createdNs := 1 }
    { pValue := 0, caution := 1 / 2 }).1

def crowdedMemory : LessonMemory :=
  ["a", "b", "c", "d", "e", "f", "g", "h", "i", "j", "k"].foldl
    (fun m statement => (m.addLesson decimalMath (neutralLesson statement) { pValue := 0 }).1)
    strongMemory

/-- A second lesson that halves the size raises nothing. -/
theorem addLesson_caution_second :
    ((strongMemory.addLesson decimalMath (neutralLesson "a")
        { pValue := 0, caution := 1 / 2 }).1.cautionMultiplier .byId decimalMath {} (2 / 5) 1).1 ≤
      (strongMemory.cautionMultiplier .byId decimalMath {} (2 / 5) 1).1 :=
  (addLesson_caution .byId decimalMath strongMemory (neutralLesson "a")
    { pValue := 0, caution := 1 / 2 } {} (2 / 5) 1).2.1 (by decide +kernel)

/-- A lesson that counsels nothing moves the one that halves the size out, and so does its
own restatement. -/
theorem addLesson_raises :
    (crowdedMemory.cautionMultiplier .byId decimalMath {} (2 / 5) 1).1 <
      ((crowdedMemory.addLesson decimalMath (neutralLesson "l")
        { pValue := 0 }).1.cautionMultiplier .byId decimalMath {} (2 / 5) 1).1 ∧
    (strongMemory.cautionMultiplier .byId decimalMath {} (2 / 5) 1).1 <
      ((strongMemory.addLesson decimalMath (neutralLesson "losses cluster")
        { pValue := 0 }).1.cautionMultiplier .byId decimalMath {} (2 / 5) 1).1 := by
  decide +kernel

end LessonMemory

end Sentinel
