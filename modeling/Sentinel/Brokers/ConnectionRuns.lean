import Sentinel.Brokers.Connections

/-!
# Connections under interleaving

An operation writes back a record it has read a while ago, stores a probe of the
account it has read, or enables the connection it has checked.  As long as what
others have done to the record since does no harm, at most one connection is
enabled, and on evidence of its own account.
-/

namespace Sentinel
namespace Connections

/-! ## Evidence -/

structure Evidenced (c : BrokerConnection) : Prop where
  taken : ∀ p ∈ c.lastProbe, p.taken = c.identity
  probed : c.enabled = true → ∃ p, c.lastProbe = some p
  activated : c.enabled = true →
    ∃ q, c.activatedWith = some q ∧ q.taken = c.identity ∧ q.blockingFailures = []

/-- Every record has evidence of its account, and at most one is enabled. -/
structure Inv (s : ConnectionTable) : Prop where
  evidenced : ∀ id c, s.get? id = some c → Evidenced c
  exclusive : ∀ id c id' c', s.get? id = some c → s.get? id' = some c' → c.enabled = true →
    c'.enabled = true → id = id'

theorem Evidenced.merge {c : BrokerConnection} (h : Evidenced c) (req : SaveRequest) :
    Evidenced (req.merge c) := by
  by_cases hsame : (req.over c).identity = c.identity
  · rw [SaveRequest.merge, if_neg (not_not.mpr hsame)]
    refine ⟨?_, h.probed, ?_⟩
    · intro p hp
      rw [hsame]
      exact h.taken p hp
    · rw [hsame]
      exact h.activated
  · rw [SaveRequest.merge, if_pos hsame]
    refine ⟨?_, ?_, ?_⟩
    · intro p hp
      cases hp
    · intro henabled
      cases henabled
    · intro henabled
      cases henabled

theorem evidenced_fresh (req : SaveRequest) (now : ℤ) : Evidenced (req.fresh now) := by
  refine ⟨?_, ?_, ?_⟩
  · intro p hp
    cases hp
  · intro henabled
    cases henabled
  · intro henabled
    cases henabled

theorem Evidenced.withSecret {c : BrokerConnection} (h : Evidenced c) (secret : Option String) :
    Evidenced (withSecret secret c) := by
  cases secret
  · exact h
  · exact ⟨h.taken, h.probed, h.activated⟩

/-! ## The discipline -/

def ConnectionOp.KeepsAccount : ConnectionOp → BrokerConnection → Prop
  | save req _ _, c => (req.over c).identity = c.identity
  | _, _ => True

/-- The record `held`, which the thread has read before, is not overtaken.  Where
a save keeps the account of a record that was enabled, no other one has been
enabled since; where a test stores its probe, the record has still the account
that was read; where an activation enables it, its probe is still the one that
was read, or another without blocking failures. -/
def NotOvertaken (s : ConnectionTable) (t : ℕ) (op : ConnectionOp) : StoreCall → Prop
  | .upsert _ => ∀ held ∈ s.held t, held.enabled = true → op.KeepsAccount held →
      ∀ id c, s.get? id = some c → c.enabled = true → id = held.id
  | .setProbe id _ => ∀ held ∈ s.held t, ∀ c, s.get? id = some c → c.identity = held.identity
  | .setExclusiveEnabled id => ∀ held ∈ s.held t, ∀ c, s.get? id = some c →
      c.lastProbe = held.lastProbe ∨ ∃ p, c.lastProbe = some p ∧ p.blockingFailures = []
  | _ => True

def discipline (w : ConnectionWorld) : Discipline (connectionMachine w) where
  inv := Inv
  rely t s s' := s'.held t = s.held t
  meetsStart _ _ := True
  meets s t op a _ := NotOvertaken s t op a
  meetsOutside _ _ := True
  effect _ _ _ _ _ := True
  rely_refl _ _ := rfl
  rely_trans _ _ _ _ h₁₂ h₂₃ := h₂₃.trans h₁₂
  outside_keeps _ x := nomatch x

section Decide

instance : ∀ op c, Decidable (ConnectionOp.KeepsAccount op c)
  | .save _ _ _, _ => inferInstanceAs (Decidable (_ = _))
  | .test _ _ _ _, _ | .activate _ _, _ | .delete _ _, _ => inferInstanceAs (Decidable True)

instance (s : ConnectionTable) (t : ℕ) (op : ConnectionOp) :
    ∀ a, Decidable (NotOvertaken s t op a)
  | .upsert _ =>
      decidable_of_iff
        (∀ held ∈ s.held t, held.enabled = true → op.KeepsAccount held →
          ∀ kv ∈ s.table.items, kv.2.enabled = true → kv.1 = held.id)
        ⟨fun h held hheld hon hkeeps id c hget =>
          h held hheld hon hkeeps (id, c) ((Dict.mem_items_iff _ _ _).mpr hget),
        fun h held hheld hon hkeeps kv hkv =>
          h held hheld hon hkeeps kv.1 kv.2 ((Dict.mem_items_iff _ _ _).mp hkv)⟩
  | .setProbe id _ =>
      decidable_of_iff (∀ held ∈ s.held t, ∀ c ∈ s.get? id, c.identity = held.identity) Iff.rfl
  | .setExclusiveEnabled id =>
      decidable_of_iff
        (∀ held ∈ s.held t, ∀ c ∈ s.get? id,
          c.lastProbe = held.lastProbe ∨ ∃ p ∈ c.lastProbe, p.blockingFailures = [])
        Iff.rfl
  | .get _ | .list | .delete _ => inferInstanceAs (Decidable True)

instance (w : ConnectionWorld)
    (p : Pool ConnectionTable ConnectionOp ConnectionOutcome StoreCall.Answer) :
    ∀ m, Decidable ((discipline w).Meets p m)
  | .start _ _ => inferInstanceAs (Decidable True)
  | .step t _ =>
      match h : p.calls t with
      | some ⟨op, .act a _⟩ => decidable_of_iff (NotOvertaken p.shared t op a)
          (by rw [Discipline.Meets, h]; rfl)
      | some ⟨_, .ret _⟩ => isTrue (by rw [Discipline.Meets, h]; trivial)
      | none => isTrue (by rw [Discipline.Meets, h]; trivial)
  | .outside x => nomatch x

end Decide

section Steps

variable {s : ConnectionTable}

theorem Inv.put (hs : Inv s) {c : BrokerConnection} (hc : Evidenced c)
    (halone : c.enabled = true → ∀ id c', s.get? id = some c' → c'.enabled = true → id = c.id) :
    Inv (s.put c) := by
  refine ⟨?_, ?_⟩
  · intro id c' hget
    rw [ConnectionTable.get?_put] at hget
    split at hget
    · cases hget
      exact hc
    · exact hs.evidenced id c' hget
  · intro id c₁ id' c₂ h₁ h₂ hon₁ hon₂
    rw [ConnectionTable.get?_put] at h₁ h₂
    split at h₁
    · rename_i hid
      cases h₁
      split at h₂
      · rename_i hid'
        rw [hid, hid']
      · rw [hid]
        exact (halone hon₁ id' c₂ h₂ hon₂).symm
    · split at h₂
      · rename_i hid'
        cases h₂
        rw [hid']
        exact halone hon₂ id c₁ h₁ hon₁
      · exact hs.exclusive id c₁ id' c₂ h₁ h₂ hon₁ hon₂

theorem Inv.upsert (hs : Inv s) {c : BrokerConnection} {now : ℤ} (hc : Evidenced c)
    (halone : c.enabled = true → ∀ id c', s.get? id = some c' → c'.enabled = true → id = c.id) :
    Inv (s.upsert c now) :=
  hs.put ⟨hc.taken, hc.probed, hc.activated⟩ halone

theorem Inv.delete (hs : Inv s) (id : String) : Inv (s.delete id) := by
  have hold : ∀ id' c, (s.delete id).get? id' = some c → s.get? id' = some c := by
    intro id' c hget
    rw [ConnectionTable.get?_delete] at hget
    split at hget
    · cases hget
    · exact hget
  refine ⟨?_, ?_⟩
  · intro id' c hget
    exact hs.evidenced id' c (hold id' c hget)
  · intro id₁ c₁ id₂ c₂ h₁ h₂
    exact hs.exclusive id₁ c₁ id₂ c₂ (hold id₁ c₁ h₁) (hold id₂ c₂ h₂)

theorem Inv.setProbe (hs : Inv s) {id : String} {probe : ProbeSummary} {now : ℤ}
    (htaken : ∀ c, s.get? id = some c → c.identity = probe.taken) :
    Inv (s.setProbe id probe now) := by
  rw [ConnectionTable.setProbe]
  split
  · rename_i c hget
    have hc := hs.evidenced id c hget
    apply hs.put
    · refine ⟨?_, ?_, hc.activated⟩
      · intro p hp
        cases hp
        exact (htaken c hget).symm
      · exact fun _ => ⟨probe, rfl⟩
    · intro hon id' c' hget' hon'
      rw [hs.exclusive id' c' id c hget' hget hon' hon]
      exact (ConnectionTable.id_of_get? hget).symm
  · exact hs

theorem Inv.setExclusiveEnabled (hs : Inv s) {id : String}
    (hclean : ∀ c, s.get? id = some c → ∃ p, c.lastProbe = some p ∧ p.blockingFailures = []) :
    Inv (s.setExclusiveEnabled id) := by
  have hon : ∀ id' c, (s.setExclusiveEnabled id).get? id' = some c → c.enabled = true →
      id' = id := by
    intro id' c hget henabled
    rw [ConnectionTable.get?_setExclusiveEnabled, Option.map_eq_some_iff] at hget
    obtain ⟨old, hold, rfl⟩ := hget
    rw [ConnectionTable.switch] at henabled
    split at henabled
    · rename_i hid
      rw [← ConnectionTable.id_of_get? hold, hid]
    · cases henabled
  refine ⟨?_, ?_⟩
  · intro id' c hget
    rw [ConnectionTable.get?_setExclusiveEnabled, Option.map_eq_some_iff] at hget
    obtain ⟨old, hold, rfl⟩ := hget
    have hid' := ConnectionTable.id_of_get? hold
    rw [ConnectionTable.switch]
    split
    · rename_i hid
      rw [hid'] at hid
      subst hid
      obtain ⟨p, hprobe, hfailures⟩ := hclean old hold
      have htaken := (hs.evidenced id' old hold).taken
      exact ⟨htaken, fun _ => ⟨p, hprobe⟩, fun _ => ⟨p, hprobe, htaken p hprobe, hfailures⟩⟩
    · refine ⟨(hs.evidenced id' old hold).taken, ?_, ?_⟩
      · intro henabled
        cases henabled
      · intro henabled
        cases henabled
  · intro id₁ c₁ id₂ c₂ h₁ h₂ hon₁ hon₂
    rw [hon id₁ c₁ h₁ hon₁, hon id₂ c₂ h₂ hon₂]

end Steps

/-! ## The operations -/

section Triples

variable {w : ConnectionWorld} {t : ℕ} {op : ConnectionOp}

def Holds (t : ℕ) (existing : Option BrokerConnection) (s : ConnectionTable) : Prop :=
  s.held t = existing ∧ ∀ c ∈ existing, Evidenced c

theorem holds_stable {existing : Option BrokerConnection} :
    (discipline w).Stable t (Holds t existing) :=
  fun _ _ hrely hs => ⟨hrely.trans hs.1, hs.2⟩

theorem triple_return {P : ConnectionTable → Prop} (o : ConnectionOutcome) :
    (discipline w).Triple t op P (pure o) fun _ _ => True :=
  Discipline.Triple.ret fun _ _ => trivial

variable {id : String} {existing : Option BrokerConnection} {c : BrokerConnection}

theorem triple_get :
    (discipline w).Triple t op (fun _ => True) (store (.get id)) fun b s => Holds t b s := by
  apply Discipline.Triple.action fun _ _ _ _ => trivial
  intro s e s' b _ hinv _ hperform
  have hpair := Option.some.inj hperform
  rw [Prod.mk.injEq] at hpair
  obtain ⟨rfl, rfl⟩ := hpair
  exact ⟨trivial, ⟨hinv.evidenced, hinv.exclusive⟩, fun u hu => Function.update_of_ne hu _ _,
    Function.update_self t _ _, fun c hc => hinv.evidenced id c hc⟩

theorem triple_list :
    (discipline w).Triple t op (Holds t existing) (store .list) fun _ s => Holds t existing s := by
  apply Discipline.Triple.action holds_stable
  intro s e s' b hs hinv _ hperform
  have hs' : s = s' := congrArg Prod.fst (Option.some.inj hperform)
  subst hs'
  exact ⟨trivial, hinv, fun _ _ => rfl, hs⟩

theorem triple_upsert (hevidenced : (∀ held ∈ existing, Evidenced held) → Evidenced c)
    (henabled : c.enabled = true → ∃ held ∈ existing, held.enabled = true ∧
      op.KeepsAccount held ∧ held.id = c.id) :
    (discipline w).Triple t op (Holds t existing) (store (.upsert c)) fun _ _ => True := by
  apply Discipline.Triple.action holds_stable
  intro s e s' b hs hinv hmeets hperform
  have hs' : s.upsert c e = s' := congrArg Prod.fst (Option.some.inj hperform)
  subst hs'
  refine ⟨trivial, hinv.upsert (hevidenced hs.2) ?_, fun _ _ => rfl, trivial⟩
  intro hon id c' hget hon'
  obtain ⟨held, hheld, hwas, hkeeps, hid⟩ := henabled hon
  rw [← hid]
  exact hmeets held (hs.1 ▸ hheld) hwas hkeeps id c' hget hon'

theorem triple_delete :
    (discipline w).Triple t op (fun _ => True) (store (.delete id)) fun _ _ => True := by
  apply Discipline.Triple.action fun _ _ _ hs => hs
  intro s e s' b _ hinv _ hperform
  have hs' : s.delete id = s' := congrArg Prod.fst (Option.some.inj hperform)
  subst hs'
  exact ⟨trivial, hinv.delete id, fun _ _ => rfl, trivial⟩

theorem held_setProbe (s : ConnectionTable) (id : String) (probe : ProbeSummary) (now : ℤ) :
    (s.setProbe id probe now).held = s.held := by
  rw [ConnectionTable.setProbe]
  split <;> rfl

theorem triple_setProbe {probe : ProbeSummary} (htaken : probe.taken = c.identity) :
    (discipline w).Triple t op (Holds t (some c)) (store (.setProbe id probe))
      fun _ _ => True := by
  apply Discipline.Triple.action holds_stable
  intro s e s' b hs hinv hmeets hperform
  have hs' : s.setProbe id probe e = s' := congrArg Prod.fst (Option.some.inj hperform)
  subst hs'
  refine ⟨trivial, hinv.setProbe fun c' hget => ?_, fun u _ =>
    congrFun (held_setProbe s id probe e) u, trivial⟩
  rw [htaken]
  exact hmeets c hs.1 c' hget

theorem triple_setExclusiveEnabled
    (hclean : ∃ p, c.lastProbe = some p ∧ p.blockingFailures = []) :
    (discipline w).Triple t op (Holds t (some c)) (store (.setExclusiveEnabled id))
      fun _ _ => True := by
  apply Discipline.Triple.action holds_stable
  intro s e s' b hs hinv hmeets hperform
  have hs' : s.setExclusiveEnabled id = s' := congrArg Prod.fst (Option.some.inj hperform)
  subst hs'
  refine ⟨trivial, hinv.setExclusiveEnabled fun c' hget => ?_, fun _ _ => rfl, trivial⟩
  rcases hmeets c hs.1 c' hget with hsame | hother
  · rwa [hsame]
  · exact hother

theorem enabled_merge {req : SaveRequest} {held : BrokerConnection}
    (h : (req.merge held).enabled = true) :
    held.enabled = true ∧ (req.over held).identity = held.identity := by
  by_cases hsame : (req.over held).identity = held.identity
  · rw [SaveRequest.merge, if_neg (not_not.mpr hsame)] at h
    exact ⟨h, hsame⟩
  · rw [SaveRequest.merge, if_pos hsame] at h
    cases h

theorem id_merge (req : SaveRequest) (held : BrokerConnection) :
    (req.merge held).id = held.id := by
  simp only [SaveRequest.merge]
  split <;> rfl

theorem withSecret_keeps (secret : Option String) (c : BrokerConnection) :
    (withSecret secret c).id = c.id ∧ (withSecret secret c).enabled = c.enabled := by
  cases secret <;> exact ⟨rfl, rfl⟩

theorem triple_save (req : SaveRequest) (now : ℤ) (secretsAvailable : Bool) :
    (discipline w).Triple t (.save req now secretsAvailable) (fun _ => True)
      (saveConnection w req now secretsAvailable) fun _ _ => True := by
  apply Discipline.Triple.bind triple_get
  intro existing
  dsimp only
  split
  · exact triple_return _
  · split
    · exact triple_return _
    · apply Discipline.Triple.bind (R := fun _ _ => True)
      · obtain ⟨hid, henabled⟩ :=
          withSecret_keeps req.secret ((existing.map req.merge).getD (req.fresh now))
        apply triple_upsert
        · intro hexisting
          apply Evidenced.withSecret
          rcases existing with - | held
          · exact evidenced_fresh req now
          · exact (hexisting held rfl).merge req
        · intro hon
          rw [henabled] at hon
          rw [hid]
          rcases existing with - | held
          · cases hon
          · obtain ⟨hwas, hkeeps⟩ := enabled_merge hon
            exact ⟨held, rfl, hwas, hkeeps, (id_merge req held).symm⟩
      · exact fun _ => triple_return _

theorem triple_test (id : String) (liveTerminal secretReadable : Bool)
    (venue : BrokerConnection → ProbeOutcome) :
    (discipline w).Triple t op (fun _ => True)
      (testConnection w id liveTerminal secretReadable venue) fun _ _ => True := by
  apply Discipline.Triple.bind triple_get
  intro existing
  rcases existing with - | c
  · exact triple_return _
  · dsimp only
    split
    · exact triple_return _
    · split
      · exact triple_return _
      · apply Discipline.Triple.bind (R := fun _ _ => True)
        · exact triple_setProbe rfl
        · exact fun _ => triple_return _

theorem probe_of_activationBlockers {c : BrokerConnection} {active : String}
    {ctx : ActivationContext} (h : activationBlockers w c active ctx = []) :
    ∃ p, c.lastProbe = some p ∧ p.blockingFailures = [] := by
  rw [activationBlockers, List.append_eq_nil_iff, List.append_eq_nil_iff] at h
  have hprobe := h.1.2
  rw [probeBlockers] at hprobe
  split at hprobe
  · cases hprobe
  · rename_i p hp
    rw [List.append_eq_nil_iff, List.append_eq_nil_iff] at hprobe
    refine ⟨p, hp, p.sound ?_⟩
    by_contra hbad
    rw [if_neg hbad] at hprobe
    cases hprobe.1.1

theorem triple_activate (id : String) (ctx : ActivationContext) :
    (discipline w).Triple t op (fun _ => True) (activateConnection w id ctx) fun _ _ => True := by
  apply Discipline.Triple.bind triple_get
  intro existing
  rcases existing with - | c
  · exact triple_return _
  · apply Discipline.Triple.bind triple_list
    intro all
    dsimp only
    split
    · exact triple_return _
    · rename_i hclear
      split
      · exact triple_return _
      · apply Discipline.Triple.bind (R := fun _ _ => True)
        · exact triple_setExclusiveEnabled (probe_of_activationBlockers (not_not.mp hclear))
        · exact fun _ => triple_return _

theorem triple_deleteConnection (id currentBroker : String) :
    (discipline w).Triple t op (fun _ => True) (deleteConnection id currentBroker)
      fun _ _ => True := by
  apply Discipline.Triple.bind triple_get
  intro existing
  rcases existing with - | c
  · exact triple_return _
  · dsimp only
    split
    · exact triple_return _
    · apply Discipline.Triple.bind (R := fun _ _ => True)
      · exact triple_delete.weaken fun _ _ => trivial
      · exact fun _ => triple_return _

end Triples

theorem verified (w : ConnectionWorld) : (discipline w).Verified := by
  intro t op
  apply Discipline.Triple.weaken (P := fun _ => True) _ fun _ _ => trivial
  cases op with
  | save req now secretsAvailable => exact triple_save req now secretsAvailable
  | test id liveTerminal secretReadable venue =>
      exact triple_test id liveTerminal secretReadable venue
  | activate id ctx => exact triple_activate id ctx
  | delete id currentBroker => exact triple_deleteConnection id currentBroker

/-! ## Runs -/

structure Activated (s : ConnectionTable) : Prop where
  exclusive : ∀ id c id' c', s.get? id = some c → s.get? id' = some c' → c.enabled = true →
    c'.enabled = true → id = id'
  evidence : ∀ id c, s.get? id = some c → c.enabled = true →
    (∃ p, c.lastProbe = some p ∧ p.taken = c.identity) ∧
    ∃ q, c.activatedWith = some q ∧ q.taken = c.identity ∧ q.blockingFailures = []

theorem Inv.activated {s : ConnectionTable} (hs : Inv s) : Activated s := by
  refine ⟨hs.exclusive, ?_⟩
  intro id c hget henabled
  have hc := hs.evidenced id c hget
  obtain ⟨p, hp⟩ := hc.probed henabled
  exact ⟨⟨p, hp, hc.taken p hp⟩, hc.activated henabled⟩

theorem inv_empty : Inv .empty := by
  refine ⟨?_, ?_⟩
  · intro id c hget
    cases hget
  · intro id c id' c' hget
    cases hget

abbrev ConnectionMove : Type := PoolMove ℤ ConnectionOp Empty

def runFrom (w : ConnectionWorld) (s : ConnectionTable) (ms : List ConnectionMove) :
    ConnectionTable :=
  (ms.foldl (connectionMachine w).step (Machine.quiet s)).shared

/-- In every run in which what others do to a record between an operation's
reading and its writing does no harm, at most one connection is enabled, and on
evidence of its own account. -/
theorem activation_under_interleaving (w : ConnectionWorld) (s : ConnectionTable) (hs : Inv s)
    (ms : List ConnectionMove)
    (hms : Along (connectionMachine w).step (discipline w).Meets (Machine.quiet s) ms) :
    Activated (runFrom w s ms) :=
  (Discipline.sound_run (verified w) (Discipline.sound_quiet hs) hms).1.activated

/-! ## Small runs -/

def paperWorld : ConnectionWorld where
  profiles := [("paper", "paper")]
  upper := id
  accountDigest := id

def saveOp (id server : String) : ConnectionOp :=
  .save { id := id, displayName := id, profile := "paper", server := server } 0 true

def cleanTest (id : String) : ConnectionOp := .test id false true fun _ => ⟨[], "", 0, "", "USD"⟩

def activateOp (id : String) : ConnectionOp := .activate id ⟨0, none, 0, 0, true⟩

def whole (t : ℕ) (op : ConnectionOp) : List ConnectionMove :=
  .start t op :: List.replicate 3 (.step t 0)

def twoTested : List ConnectionMove :=
  whole 0 (saveOp "alpha" "") ++ whole 0 (cleanTest "alpha") ++ whole 0 (saveOp "beta" "") ++
    whole 0 (cleanTest "beta") ++ whole 0 (activateOp "alpha")

def interleavedOperations : List ConnectionMove :=
  twoTested ++
    [.start 0 (saveOp "alpha" ""), .start 1 (cleanTest "beta"), .step 0 0, .step 1 0, .step 0 0,
      .step 1 0, .start 0 (cleanTest "beta"), .start 1 (activateOp "beta"), .step 1 0,
      .step 0 0, .step 1 0, .step 0 0, .step 1 0]

theorem activated_interleaved :
    Activated (runFrom paperWorld .empty interleavedOperations) := by
  apply activation_under_interleaving paperWorld .empty inv_empty
  decide +kernel

def savedOverActivation : List ConnectionMove :=
  twoTested ++ [.start 0 (saveOp "alpha" ""), .step 0 0] ++ whole 1 (activateOp "beta") ++
    [.step 0 0]

def testedOverEdit : List ConnectionMove :=
  whole 0 (saveOp "alpha" "") ++ [.start 0 (cleanTest "alpha"), .step 0 0] ++
    whole 1 (saveOp "alpha" "other") ++ [.step 0 0] ++ whole 1 (activateOp "alpha")

def activatedOverEdit : List ConnectionMove :=
  whole 0 (saveOp "alpha" "") ++ whole 0 (cleanTest "alpha") ++
    [.start 0 (activateOp "alpha"), .step 0 0, .step 0 0] ++ whole 1 (saveOp "alpha" "other") ++
    [.step 0 0]

theorem stored_of_map {w : ConnectionWorld} {ms : List ConnectionMove} {id : String} {β : Type}
    {f : BrokerConnection → β} {b : β} (h : ((runFrom w .empty ms).get? id).map f = some b) :
    ∃ c, (runFrom w .empty ms).get? id = some c ∧ f c = b := Option.map_eq_some_iff.mp h

/-- Two connections are enabled, and a connection is enabled on a probe of
another account or on none. -/
theorem overtaken_operations_break_activation :
    ¬ Activated (runFrom paperWorld .empty savedOverActivation) ∧
      ¬ Activated (runFrom paperWorld .empty testedOverEdit) ∧
      ¬ Activated (runFrom paperWorld .empty activatedOverEdit) := by
  refine ⟨?_, ?_, ?_⟩
  · intro h
    obtain ⟨a, ha, haon⟩ := stored_of_map (f := fun c => c.enabled)
      (show ((runFrom paperWorld .empty savedOverActivation).get? "alpha").map _ = some true by
        decide +kernel)
    obtain ⟨b, hb, hbon⟩ := stored_of_map (f := fun c => c.enabled)
      (show ((runFrom paperWorld .empty savedOverActivation).get? "beta").map _ = some true by
        decide +kernel)
    have hsame := h.exclusive "alpha" a "beta" b ha hb haon hbon
    exact absurd hsame (by decide)
  · intro h
    obtain ⟨a, ha, hfields⟩ := stored_of_map
      (f := fun c => (c.enabled, c.lastProbe.map (·.taken.server), c.server))
      (show ((runFrom paperWorld .empty testedOverEdit).get? "alpha").map _ =
        some (true, some "", "other") by decide +kernel)
    simp only [Prod.mk.injEq] at hfields
    obtain ⟨⟨p, hp, htaken⟩, -⟩ := h.evidence "alpha" a ha hfields.1
    have hserver : p.taken.server = "" := by
      simpa [hp] using hfields.2.1
    rw [htaken] at hserver
    have hother : a.identity.server = "other" := hfields.2.2
    rw [hother] at hserver
    exact absurd hserver (by decide)
  · intro h
    obtain ⟨a, ha, hfields⟩ := stored_of_map (f := fun c => (c.enabled, c.lastProbe))
      (show ((runFrom paperWorld .empty activatedOverEdit).get? "alpha").map _ =
        some (true, none) by decide +kernel)
    simp only [Prod.mk.injEq] at hfields
    obtain ⟨⟨p, hp, -⟩, -⟩ := h.evidence "alpha" a ha hfields.1
    rw [hfields.2] at hp
    cases hp

end Connections
end Sentinel
