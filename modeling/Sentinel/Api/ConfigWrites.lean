import Sentinel.Api.Credentials
import Sentinel.Brokers.Connections
import Sentinel.Research.Verdicts
import Sentinel.Support.Nested

/-!
# Configuration writes

The console changes the configuration by patches.  A patch is merged into the
current configuration, the privileged fields are compared, accepted strategies
are looked up in the registry, and what is left to the schema is validated.
The activation of a connection is the one write that may touch privileged
fields, those it names; the mode of the agent has a call of its own.
-/

namespace Sentinel

/-- A scalar, as far as `==` tells it apart. -/
inductive ConfigScalar where
  | number (q : ℚ)
  | text (s : String)
  deriving DecidableEq

abbrev ConfigNode := Nested String ConfigScalar

abbrev ConfigItems := List (String × ConfigNode)

namespace ConfigNode

def null : ConfigNode := .scalar none

def text (s : String) : ConfigNode := .scalar (some (.text s))

/-- Python's truth of a value, negated. -/
def falsy : ConfigNode → Bool
  | .scalar none => true
  | .scalar (some (.number q)) => q = 0
  | .scalar (some (.text s)) => s = ""
  | .dict items => items.isEmpty
  | .list elements => elements.isEmpty

def text? : ConfigNode → Option String
  | .scalar (some (.text s)) => some s
  | _ => none

end ConfigNode

namespace ConfigWrites

open ConfigNode Connections

/-- A section and a key. -/
abbrev Field := String × String

/-- `(data.get(section) or {}).get(key)`; `none` where it raises. -/
def read (data : ConfigItems) (p : Field) : Option ConfigNode :=
  match data.lookup p.1 with
  | none => some null
  | some (.dict items) => some ((items.lookup p.2).getD null)
  | some v => if v.falsy then some null else none

/-- `_PRIVILEGED`. -/
def privileged : List Field :=
  [("agent", "mode"), ("execution", "venue_mode"), ("execution", "broker"),
   ("execution", "expected_account_id"), ("execution", "expected_account_server"),
   ("execution", "account_currency"), ("ops", "audit_log"), ("ops", "state_dir"),
   ("ops", "killswitch_file"), ("security", "bind_host"), ("security", "bind_port"),
   ("security", "require_totp_for_writes"), ("security", "allowed_origins"),
   ("security", "session_ttl_minutes"), ("security", "dashboard_read_only_default"),
   ("agent", "meta_model_path"), ("ops", "strategy_plugin_dir"), ("ops", "backup_dir"),
   ("ops", "group_ledger_dir"), ("data", "store_path")]

/-- The schema.  Each field is validated by itself: `coerce` is what a field
makes of a value, and what it has been dumped as is left as it is. -/
structure Schema (C : Type) where
  dump : C → ConfigItems
  validate : ConfigItems → Option C
  version : C → ℤ
  withMode : C → String → C
  /-- the enabled strategies that are not accepted -/
  unaccepted : C → List String
  coerce : Field → ConfigNode → ConfigNode
  dumped : ∀ c, ∀ p ∈ privileged, ∃ items v,
    (dump c).lookup p.1 = some (.dict items) ∧ items.lookup p.2 = some v ∧ coerce p v = v
  sections : ∀ {data c}, validate data = some c → ∀ p ∈ privileged, ∀ v,
    data.lookup p.1 = some v → ∃ items, v = .dict items
  fields : ∀ {data c}, validate data = some c → ∀ p ∈ privileged, ∀ items v,
    data.lookup p.1 = some (.dict items) → items.lookup p.2 = some v →
      read (dump c) p = some (coerce p v)
  live : ∀ v, coerce ("execution", "venue_mode") v = text "live" → v = text "live"
  mode : ∀ c m, ∀ p ∈ privileged, read (dump (withMode c m)) p =
    if p = ("agent", "mode") then some (text m) else read (dump c) p

/-- The verdict store, with the fingerprint of an allocation of the merged data. -/
structure Registry where
  store : VerdictStore
  fingerprint : ConfigItems → ConfigItems → String

/-- Why a write is refused. -/
inductive Refusal where
  | raised
  | privileged (p : Field) (before after : ConfigNode)
  | policyChanged (name : String)
  | unbacked (name : String)
  | invalid
  | unaccepted (names : List String)

/-- The value in the patch takes the place of the stored one. -/
def replaceField (patch : Dict String ConfigNode) (merged : ConfigItems) (p : Field) :
    ConfigItems :=
  match patch.get? p.1, merged.lookup p.1 with
  | some (.dict sub), some (.dict items) =>
      match sub.lookup p.2 with
      | some v => Nested.put merged p.1 (.dict (Nested.put items p.2 v))
      | none => merged
  | _, _ => merged

/-- A privileged field is as before, or in `allow`. -/
def guardField (before merged : ConfigItems) (allow : List Field) (p : Field) : Option Refusal :=
  if p ∈ allow then none
  else
    match read before p, read merged p with
    | some old, some new => if new = old then none else some (.privileged p old new)
    | _, _ => some .raised

/-- One allocation of the merged data. -/
def guardAllocation (reg : Registry) (before : List ConfigNode) (merged : ConfigItems) :
    ConfigNode → Option Refusal
  | .dict a =>
      if a.lookup "lifecycle" ≠ some (text "accepted") then none
      else
        let name := ((a.lookup "name").bind text?).getD ""
        match reg.store.authorises name ((a.lookup "acceptance_run_id").bind text?)
          (reg.fingerprint merged a) with
        | .ok () => none
        | .error _ =>
            if before.any fun prior =>
                match prior with
                | .dict b => b.lookup "name" = a.lookup "name" ∧
                    b.lookup "lifecycle" = some (text "accepted") ∧
                    b.lookup "acceptance_run_id" = a.lookup "acceptance_run_id"
                | _ => false
            then some (.policyChanged name)
            else some (.unbacked name)
  | _ => some .raised

def elements? : Option ConfigNode → Option (List ConfigNode)
  | none => some []
  | some (.list l) => some l
  | some (.dict []) => some []
  | some (.scalar (some (.text ""))) => some []
  | some _ => none

/-- `_guard_privileged_fields`: the first refusal. -/
def guardPrivilegedFields (reg : Registry) (before merged : ConfigItems) (allow : List Field) :
    Option Refusal :=
  (privileged.findSome? (guardField before merged allow)).or
    (match elements? (merged.lookup "strategies") with
      | none => some .raised
      | some l =>
          l.findSome? (guardAllocation reg
            ((elements? (before.lookup "strategies")).getD []) merged))

variable {C : Type} (S : Schema C)

/-- The data that a patch leads to. -/
def merged (c : C) (patch : Dict String ConfigNode) (replace : List Field) : ConfigItems :=
  replace.foldl (replaceField patch) (Nested.merge (S.dump c) patch.items)

/-- The stamps of a write. -/
def stamp (c : C) (nowNs : ℤ) (by_ : String) (data : ConfigItems) : ConfigItems :=
  Nested.put (Nested.put (Nested.put data "version" (.scalar (some (.number (S.version c + 1)))))
    "updated_at_ns" (.scalar (some (.number nowNs)))) "updated_by" (text by_)

/-- `update_config`. -/
def updateConfig (reg : Registry) (c : C) (patch : Dict String ConfigNode) (nowNs : ℤ)
    (by_ : String) (allow replace : List Field) : Except Refusal C :=
  let data := merged S c patch replace
  match guardPrivilegedFields reg (S.dump c) data allow with
  | some why => .error why
  | none =>
      match S.validate (stamp S c nowNs by_ data) with
      | none => .error .invalid
      | some new => .ok new

/-- `_activation_patch`: the entries of the section `execution`. -/
def activationEntries (w : ConnectionWorld) (conn : BrokerConnection) (liveNow : Bool) :
    Dict String ConfigNode :=
  let adapter := (w.adapter? conn.profile).getD "mt5"
  let execution := Dict.empty.set "broker" (text conn.profile)
  if adapter = "paper" then
    let execution :=
      if liveNow then execution else execution.set "venue_mode" (text "paper")
    (execution.set "expected_account_id" (text "")).set "expected_account_server" (text "")
  else
    let execution :=
      if conn.declaredAccountType = "demo" then execution.set "venue_mode" (text "demo")
      else execution
    let execution :=
      if conn.login ≠ "" then
        (execution.set "expected_account_id" (text (
          if adapter = "mt5" then w.normaliseAccountId conn.login
          else TextOps.strip conn.login))).set
          "expected_account_server" (text (
            if adapter = "mt5" then TextOps.strip conn.server else ""))
      else execution
    let observed := (conn.lastProbe.map ProbeSummary.accountCurrency).getD ""
    let currency := w.upper (TextOps.strip (if observed ≠ "" then observed else
      conn.accountCurrency))
    if 3 ≤ currency.length ∧ currency.length ≤ 5 then
      execution.set "account_currency" (text currency)
    else execution

/-- `set_mode`, from the console to the agent. -/
def setMode (c : C) (mode : String) : Except Refusal C :=
  if mode ∉ ["observe", "advisory", "semi_auto", "autonomous"] then .error .raised
  else if mode = "autonomous" ∧ read (S.dump c) ("execution", "venue_mode") = some (text "live") ∧
      S.unaccepted c ≠ [] then
    .error (.unaccepted (S.unaccepted c))
  else .ok (S.withMode c mode)

/-- What the console does to the configuration.  Whether the mode was live when
the patch of an activation was made is open: that is read before the lock. -/
inductive ConfigMove where
  | write (reg : Registry) (patch : Dict String ConfigNode) (nowNs : ℤ) (by_ : String)
      (replace : List Field)
  | activate (reg : Registry) (w : ConnectionWorld) (conn : BrokerConnection) (liveNow : Bool)
      (nowNs : ℤ) (by_ : String)
  | setMode (mode : String)

def activationPatch (w : ConnectionWorld) (conn : BrokerConnection) (liveNow : Bool) :
    Dict String ConfigNode :=
  Dict.empty.set "execution" (.dict (activationEntries w conn liveNow).items)

def perform (c : C) : ConfigMove → Except Refusal C
  | .write reg patch nowNs by_ replace => updateConfig S reg c patch nowNs by_ [] replace
  | .activate reg w conn liveNow nowNs by_ =>
      updateConfig S reg c (activationPatch w conn liveNow) nowNs by_
        ((activationEntries w conn liveNow).keys.map fun key => ("execution", key)) []
  | .setMode mode => setMode S c mode

/-- What is refused changes nothing. -/
def step (c : C) (m : ConfigMove) : C :=
  match perform S c m with
  | .ok new => new
  | .error _ => c

/-! ## One write -/

variable {S} {c new : C} {p : Field}

/-- The section holds the field, or is no mapping. -/
def Has (data : ConfigItems) (p : Field) : Prop :=
  ∃ v, data.lookup p.1 = some v ∧ ∀ items, v = .dict items → (items.lookup p.2).isSome

theorem Has.put {data : ConfigItems} (h : Has data p) {k : String} (hk : p.1 ≠ k)
    (v : ConfigNode) : Has (Nested.put data k v) p := by
  obtain ⟨w, hw, hitems⟩ := h
  exact ⟨w, by rw [Nested.lookup_put, if_neg hk, hw], hitems⟩

theorem Has.replaceField {data : ConfigItems} (h : Has data p)
    (patch : Dict String ConfigNode) (q : Field) : Has (replaceField patch data q) p := by
  unfold ConfigWrites.replaceField
  split
  · rename_i sub items hsub hlookup
    split
    · rename_i v hv
      by_cases hq : p.1 = q.1
      · obtain ⟨w, hw, hitems⟩ := h
        rw [hq, hlookup] at hw
        have hold := hitems items (Option.some.inj hw).symm
        refine ⟨.dict (Nested.put items q.2 v), by rw [Nested.lookup_put, if_pos hq], ?_⟩
        rintro - ⟨⟩
        rw [Nested.lookup_put]
        split_ifs
        · rfl
        · exact hold
      · exact h.put hq _
    · exact h
  · exact h

theorem has_merged (hp : p ∈ privileged) (patch : Dict String ConfigNode)
    (replace : List Field) : Has (merged S c patch replace) p := by
  obtain ⟨items, v, hsection, hkey, -⟩ := S.dumped c p hp
  have hmerge : Has (Nested.merge (S.dump c) patch.items) p := by
    rw [Has, Nested.lookup_merge patch.nodup, hsection]
    rcases patch.items.lookup p.1 with - | w
    · refine ⟨_, rfl, ?_⟩
      intro entries hentries
      rw [← Nested.dict.inj hentries, hkey]
      rfl
    · refine ⟨_, rfl, ?_⟩
      rcases w with x | entries | elements
      · rintro - ⟨⟩
      · rintro - ⟨⟩
        exact Nested.isSome_lookup_merge (by rw [hkey]; rfl)
      · rintro - ⟨⟩
  unfold merged
  generalize Nested.merge (S.dump c) patch.items = data at hmerge ⊢
  induction replace generalizing data with
  | nil => exact hmerge
  | cons q replace ih => exact ih _ (hmerge.replaceField patch q)

theorem lookup_stamp (hp : p ∈ privileged) (nowNs : ℤ) (by_ : String) (data : ConfigItems) :
    (stamp S c nowNs by_ data).lookup p.1 = data.lookup p.1 := by
  have hnames : ∀ p ∈ privileged,
      p.1 ≠ "version" ∧ p.1 ≠ "updated_at_ns" ∧ p.1 ≠ "updated_by" := by decide
  obtain ⟨hversion, hat, hby⟩ := hnames p hp
  rw [stamp, Nested.lookup_put, if_neg hby, Nested.lookup_put, if_neg hat, Nested.lookup_put,
    if_neg hversion]

section Update

variable {reg : Registry} {patch : Dict String ConfigNode} {nowNs : ℤ} {by_ : String}
  {allow replace : List Field}

/-- A write that is accepted: what becomes of a privileged field, and which stay. -/
theorem updateConfig_spec
    (h : updateConfig S reg c patch nowNs by_ allow replace = .ok new) (hp : p ∈ privileged) :
    ∃ items v, (merged S c patch replace).lookup p.1 = some (.dict items) ∧
      items.lookup p.2 = some v ∧ read (S.dump new) p = some (S.coerce p v) ∧
      (p ∉ allow → read (S.dump new) p = read (S.dump c) p) := by
  simp only [updateConfig] at h
  split at h
  · cases h
  · rename_i hguard
    split at h
    · cases h
    · rename_i c' hvalid
      rw [Except.ok.inj h] at hvalid
      rw [guardPrivilegedFields, Option.or_eq_none_iff, List.findSome?_eq_none_iff] at hguard
      obtain ⟨w, hw, hkey⟩ := has_merged (c := c) (S := S) hp patch replace
      obtain ⟨items, rfl⟩ := S.sections hvalid p hp w (by rw [lookup_stamp hp, hw])
      obtain ⟨v, hv⟩ := Option.isSome_iff_exists.mp (hkey items rfl)
      have hread := S.fields hvalid p hp items v (by rw [lookup_stamp hp, hw]) hv
      refine ⟨items, v, hw, hv, hread, fun hallow => ?_⟩
      obtain ⟨items', v', hsection, hkey', hcoerce⟩ := S.dumped c p hp
      have hold : read (S.dump c) p = some v' := by
        simp only [read, hsection, hkey', Option.getD_some]
      have hnew : read (merged S c patch replace) p = some v := by
        simp only [read, hw, hv, Option.getD_some]
      have hsame := hguard.1 p hp
      simp only [guardField, if_neg hallow, hold, hnew] at hsame
      by_cases hvv : v = v'
      · rw [hread, hold, hvv, hcoerce]
      · rw [if_neg hvv] at hsame
        cases hsame

end Update

/-- An activation moves the venue mode towards safety only. -/
theorem activationEntries_venueMode {w : ConnectionWorld} {conn : BrokerConnection}
    {liveNow : Bool} {v : ConfigNode}
    (h : (activationEntries w conn liveNow).get? "venue_mode" = some v) :
    v = text "paper" ∨ v = text "demo" := by
  simp only [activationEntries] at h
  split_ifs at h <;>
    simp [Dict.get?_set_of_ne, Dict.get?_set_self, Dict.get?_empty] at h <;> simp [h]

/-! ## Runs -/

/-- The fields that an activation may write. -/
def activationFields : List Field :=
  ["venue_mode", "broker", "expected_account_id", "expected_account_server",
    "account_currency"].map fun key => ("execution", key)

theorem activationEntries_keys {w : ConnectionWorld} {conn : BrokerConnection} {liveNow : Bool}
    {key : String} (h : key ∈ (activationEntries w conn liveNow).keys) :
    ("execution", key) ∈ activationFields := by
  have hempty : key ∉ (Dict.empty : Dict String ConfigNode).keys := List.not_mem_nil
  simp only [activationEntries] at h
  simp only [activationFields, List.mem_map, List.mem_cons]
  split_ifs at h <;> simp only [Dict.mem_keys_set, hempty, or_false] at h <;>
    exact ⟨key, by tauto, rfl⟩

/-- No write but an activation touches a field of an activation, and the mode has a
call of its own. -/
theorem read_perform {m : ConfigMove} (h : perform S c m = .ok new) (hp : p ∈ privileged)
    (hmode : p ≠ ("agent", "mode"))
    (hfield : p ∉ activationFields ∨ ∀ reg w conn liveNow nowNs by_,
      m ≠ .activate reg w conn liveNow nowNs by_) :
    read (S.dump new) p = read (S.dump c) p := by
  cases m with
  | write reg patch nowNs by_ replace =>
      obtain ⟨-, -, -, -, -, hkept⟩ := updateConfig_spec h hp
      exact hkept (List.not_mem_nil)
  | activate reg w conn liveNow nowNs by_ =>
      obtain ⟨-, -, -, -, -, hkept⟩ := updateConfig_spec h hp
      refine hkept fun hallow => ?_
      obtain ⟨key, hkey, rfl⟩ := List.mem_map.mp hallow
      rcases hfield with hfield | hno
      · exact hfield (activationEntries_keys hkey)
      · exact hno reg w conn liveNow nowNs by_ rfl
  | setMode mode =>
      simp only [perform, setMode] at h
      split_ifs at h
      rw [← Except.ok.inj h, S.mode c mode p hp, if_neg hmode]

theorem live_of_perform {m : ConfigMove} (h : perform S c m = .ok new)
    (hlive : read (S.dump new) ("execution", "venue_mode") = some (text "live")) :
    read (S.dump c) ("execution", "venue_mode") = some (text "live") := by
  have hp : ("execution", "venue_mode") ∈ privileged := by decide
  cases m with
  | write reg patch nowNs by_ replace =>
      obtain ⟨-, -, -, -, -, hkept⟩ := updateConfig_spec h hp
      rw [← hkept List.not_mem_nil, hlive]
  | activate reg w conn liveNow nowNs by_ =>
      obtain ⟨items, v, hsection, hkey, hread, hkept⟩ := updateConfig_spec h hp
      rcases hentry : (activationEntries w conn liveNow).get? "venue_mode" with - | entry
      · rw [← hkept ?_, hlive]
        intro hallow
        obtain ⟨key, hmem, heq⟩ := List.mem_map.mp hallow
        rw [(Prod.mk.inj heq).2] at hmem
        exact (Dict.get?_eq_none_iff _ _).mp hentry hmem
      · -- the value is that of the patch, and the schema makes no other one live
        obtain ⟨old, -, hold, -, -⟩ := S.dumped c _ hp
        have hmerged : (merged S c (activationPatch w conn liveNow) []).lookup "execution" =
            some (.dict (Nested.merge old (activationEntries w conn liveNow).items)) := by
          rw [merged, List.foldl_nil, Nested.lookup_merge (Dict.nodup _), hold]
          rfl
        have hlookup : (activationEntries w conn liveNow).items.lookup "venue_mode" =
            some entry := hentry
        rw [Nested.dict.inj (Option.some.inj (hsection.symm.trans hmerged)),
          Nested.lookup_merge (Dict.nodup _), hlookup] at hkey
        have hvalue : v = text "live" := S.live v (Option.some.inj (hread.symm.trans hlive))
        rw [hvalue] at hkey
        rcases activationEntries_venueMode hentry with rfl | rfl
        · simp [Nested.mergeValue, ConfigNode.text] at hkey
        · simp [Nested.mergeValue, ConfigNode.text] at hkey
  | setMode mode =>
      simp only [perform, setMode] at h
      split_ifs at h
      rwa [← Except.ok.inj h, S.mode c mode _ hp, if_neg (by decide)] at hlive

theorem step_cases (S : Schema C) (c : C) (m : ConfigMove) :
    step S c m = c ∨ ∃ new, perform S c m = .ok new ∧ step S c m = new := by
  unfold step
  rcases perform S c m with why | new
  · exact .inl rfl
  · exact .inr ⟨new, rfl, rfl⟩

/-- Configurations of the privileged fields alone, each of which takes any value. -/
def plain : Schema (Field → ConfigNode) where
  dump c := (privileged.map Prod.fst).dedup.map fun s =>
    (s, .dict ((privileged.filter fun p => p.1 = s).map fun p => (p.2, c p)))
  validate data :=
    if ∀ p ∈ privileged, (data.lookup p.1).map Nested.kind = some .dict then
      some fun p => (read data p).getD null
    else none
  version _ := 0
  withMode c m := Function.update c ("agent", "mode") (text m)
  unaccepted _ := []
  coerce _ v := v
  dumped := by
    intro c p hp
    fin_cases hp <;> exact ⟨_, _, rfl, rfl, rfl⟩
  sections := by
    intro data c h p hp v hv
    obtain ⟨hall, -⟩ := Option.ite_none_right_eq_some.mp h
    have hkind := hall p hp
    rw [hv] at hkind
    cases v with
    | dict items => exact ⟨items, rfl⟩
    | scalar w => cases hkind
    | list elements => cases hkind
  fields := by
    intro data c h p hp items v hsection hkey
    obtain ⟨-, hc⟩ := Option.ite_none_right_eq_some.mp h
    have hread : read data p = some v := by simp only [read, hsection, hkey, Option.getD_some]
    have hvalue : c p = v := by
      rw [← Option.some.inj hc]
      simp only [hread, Option.getD_some]
    rw [← hvalue]
    fin_cases hp <;> rfl
  live _ h := h
  mode := by
    intro c m p hp
    fin_cases hp <;> rfl

/-- A write of the venue mode and of the place of the journal. -/
def liveWrite : ConfigMove :=
  .write ⟨⟨[], false, List.nodup_nil⟩, fun _ _ => ""⟩
    ((Dict.empty.set "execution" (.dict [("venue_mode", text "live")])).set "ops"
      (.dict [("audit_log", text "elsewhere")])) 0 "owner" []

/-- Over any calls of the console the privileged fields stay as they were at the
start, but for the mode of the agent and what an activation writes; and without an
activation this stays as well. -/
theorem privileged_kept (S : Schema C) (c : C) (moves : List ConfigMove) :
    ∀ p ∈ privileged, p ≠ ("agent", "mode") →
      (p ∉ activationFields ∨ ∀ reg w conn liveNow nowNs by_,
        .activate reg w conn liveNow nowNs by_ ∉ moves) →
      read (S.dump (moves.foldl (step S) c)) p = read (S.dump c) p := by
  intro p hp hmode
  induction moves generalizing c with
  | nil => exact fun _ => rfl
  | cons m moves ih =>
      intro hfield
      rw [List.foldl_cons, ih (step S c m)]
      · rcases step_cases S c m with hsame | ⟨new, hrun, hnew⟩
        · rw [hsame]
        · rw [hnew]
          refine read_perform hrun hp hmode (hfield.imp_right ?_)
          rintro hno reg w conn liveNow nowNs by_ rfl
          exact hno reg w conn liveNow nowNs by_ List.mem_cons_self
      · refine hfield.imp_right fun hno reg w conn liveNow nowNs by_ hmem => ?_
        exact hno reg w conn liveNow nowNs by_ (List.mem_cons_of_mem m hmem)

/-- A change of mode, a write that is let through, and one that is refused. -/
def threeCalls : List ConfigMove :=
  [.setMode "advisory",
    .write ⟨⟨[], false, List.nodup_nil⟩, fun _ _ => ""⟩
      (Dict.empty.set "ops" (.dict [("log_level", text "debug")])) 0 "owner" [],
    liveWrite]

theorem privileged_kept_threeCalls :
    read (plain.dump (threeCalls.foldl (step plain) fun _ => text "paper"))
        ("ops", "audit_log") = some (text "paper") ∧
      read (plain.dump (threeCalls.foldl (step plain) fun _ => text "paper"))
        ("agent", "mode") = some (text "advisory") :=
  ⟨privileged_kept plain _ threeCalls ("ops", "audit_log") (by decide) (by decide)
    (.inl (by decide)), by decide⟩

/-- Nothing the console does makes the venue mode live. -/
theorem venueMode_not_live (S : Schema C) {c : C}
    (h : read (S.dump c) ("execution", "venue_mode") ≠ some (text "live"))
    (moves : List ConfigMove) :
    read (S.dump (moves.foldl (step S) c)) ("execution", "venue_mode") ≠ some (text "live") := by
  induction moves generalizing c with
  | nil => exact h
  | cons m moves ih =>
      refine ih ?_
      rcases step_cases S c m with hsame | ⟨new, hrun, hnew⟩
      · rwa [hsame]
      · rw [hnew]
        exact fun hlive => h (live_of_perform hrun hlive)

theorem venueMode_not_live_liveWrite :
    read (plain.dump ([liveWrite].foldl (step plain) fun _ => text "paper"))
      ("execution", "venue_mode") ≠ some (text "live") :=
  venueMode_not_live plain (by decide) _

end ConfigWrites

end Sentinel
