import Mathlib.Algebra.Order.Ring.Int
import Mathlib.Data.List.Dedup
import Sentinel.Support.Dict
import Sentinel.Support.Interleaving

/-!
# The activation server

The server keeps a registry of licences and of the devices that use them, and
answers a request with a signed lease.  A request reads and writes the registry
in several steps, and other requests and the vendor's administration run in
between.
-/

namespace Sentinel
namespace SeatServer

/-! ## The registry -/

/-- A row of `licences`, by its licence id. -/
structure LicenceRow where
  issuedTo : String
  status : String
  reason : String
  seats : Option ℤ
  createdNs : ℤ
  deriving DecidableEq

structure LeasePayload where
  licenceId : String
  device : String
  nonce : String
  status : String
  leaseHours : ℚ
  message : String := ""
  seatsUsed : ℕ := 0
  seatsAllowed : Option ℤ := none
  deriving DecidableEq

structure Signing where
  lease : LeasePayload
  status : Option String
  registered : Bool

/-- The two tables; a device has the first and the last time it was seen.  The
other fields are no part of the program.  Of a thread that has not answered yet:
the licence whose row it has read as active, and whether the vendor has withdrawn
it since; the licence whose devices it has read, and whether another request has
added one since.  And the leases signed. -/
structure Registry where
  licences : Dict String LicenceRow
  devices : Dict (String × String) (ℤ × ℤ)
  answering : ℕ → Option (String × Bool)
  counted : ℕ → Option (String × Bool)
  signed : List Signing

def outdate (licenceId : String) (reading : Option (String × Bool)) : Option (String × Bool) :=
  reading.map fun r => (r.1, r.2 || r.1 == licenceId)

namespace Registry

variable (s : Registry)

def register (licenceId issuedTo : String) (seats : Option ℤ) (now : ℤ) : Registry :=
  match s.licences.get? licenceId with
  | some row =>
      { s with
        licences := s.licences.set licenceId { row with seats := seats, issuedTo := issuedTo } }
  | none =>
      { s with licences := s.licences.set licenceId ⟨issuedTo, "active", "", seats, now⟩ }

def setStatus (licenceId status reason : String) : Registry :=
  match s.licences.get? licenceId with
  | some row =>
      { s with
        licences := s.licences.set licenceId { row with status := status, reason := reason }
        answering := fun t =>
          if status = "active" then s.answering t else outdate licenceId (s.answering t) }
  | none => s

/-- `devices`. -/
def devicesOf (licenceId : String) : List String :=
  (s.devices.keys.filter fun key => key.1 = licenceId).map Prod.snd

def touchDevice (licenceId device : String) (now : ℤ) : Registry :=
  match s.devices.get? (licenceId, device) with
  | some seen => { s with devices := s.devices.set (licenceId, device) (seen.1, now) }
  | none =>
      { s with
        devices := s.devices.set (licenceId, device) (now, now)
        counted := fun t => outdate licenceId (s.counted t) }

def resetDevices (licenceId : String) : Registry :=
  { s with devices := s.devices.restrict fun key => key.1 ≠ licenceId }

def noteRow (t : ℕ) (licenceId : String) (row : Option LicenceRow) : Registry :=
  { s with
    answering := Function.update s.answering t
      (if row.map (·.status) = some "active" then some (licenceId, false) else none) }

def noteDevices (t : ℕ) (licenceId : String) : Registry :=
  { s with counted := Function.update s.counted t (some (licenceId, false)) }

def noteAdded (t : ℕ) : Registry :=
  { s with counted := Function.update s.counted t none }

def noteAnswered (t : ℕ) : Registry :=
  { s with
    answering := Function.update s.answering t none
    counted := Function.update s.counted t none }

end Registry

def signLease (lease : LeasePayload) : Except String LeasePayload :=
  if lease.status ∉ ["active", "revoked", "suspended"] then
    .error ("unknown lease status '" ++ lease.status ++ "'")
  else if lease.leaseHours ≤ 0 ∨ lease.leaseHours > 24 * 90 then
    .error "lease_hours must be within (0, 2160]"
  else .ok { lease with message := String.ofList (lease.message.toList.take 500) }

/-! ## The steps of a request -/

inductive Action
  | get (licenceId : String)
  | register (licenceId issuedTo : String) (seats : Option ℤ)
  | devices (licenceId : String)
  | touchDevice (licenceId device : String)
  | sign (lease : LeasePayload)

@[reducible] def Action.Answer : Action → Type
  | get _ => Option LicenceRow
  | devices _ => List String
  | sign _ => Except String LeasePayload
  | _ => Unit

def performAction (t : ℕ) : (a : Action) → ℤ → Registry → Option (Registry × a.Answer)
  | .get licenceId, _, s =>
      some (s.noteRow t licenceId (s.licences.get? licenceId), s.licences.get? licenceId)
  | .register licenceId issuedTo seats, now, s =>
      some (s.register licenceId issuedTo seats now, ())
  | .devices licenceId, _, s => some (s.noteDevices t licenceId, s.devicesOf licenceId)
  | .touchDevice licenceId device, now, s =>
      some ((s.touchDevice licenceId device now).noteAdded t, ())
  | .sign lease, _, s =>
      match signLease lease with
      | .error message => some (s.noteAnswered t, .error message)
      | .ok lease =>
          some ({ s.noteAnswered t with
            signed := s.signed ++ [⟨lease, (s.licences.get? lease.licenceId).map (·.status),
              s.devices.contains (lease.licenceId, lease.device)⟩] }, .ok lease)

/-- What `verify` says of a genuine licence. -/
structure GenuineLicence where
  licenceId : String
  issuedTo : String
  maxAccounts : Option ℤ

structure ServerConfig where
  verify : String → Except String GenuineLicence
  leaseHours : ℚ
  autoRegister : Bool

structure LeaseRequest where
  licence : String
  device : String
  nonce : String

abbrev Reply : Type := Except String LeasePayload

abbrev ServerProg (ρ : Type) : Type := Prog Action.Answer ρ

def call (a : Action) : ServerProg a.Answer := Prog.perform a

/-- `decide`, once the row of the licence has been read. -/
def answerRow (cfg : ServerConfig) (req : LeaseRequest) (licence : GenuineLicence)
    (row : LicenceRow) : ServerProg Reply :=
  if row.status ≠ "active" then
    call (.sign { licenceId := licence.licenceId, device := req.device, nonce := req.nonce,
                  status := row.status, leaseHours := 24,
                  message := if row.reason = "" then "withdrawn by the vendor" else row.reason })
  else do
    let known ← call (.devices licence.licenceId)
    match row.seats with
    | some seats =>
        if req.device ∉ known ∧ (known.length : ℤ) ≥ seats then
          call (.sign { licenceId := licence.licenceId, device := req.device, nonce := req.nonce,
                        status := "suspended", leaseHours := 1,
                        message :=
                          "all " ++ toString seats ++ " installation(s) of this licence " ++
                          "are in use; ask the vendor to release one",
                        seatsUsed := known.length, seatsAllowed := some seats })
        else do
          call (.touchDevice licence.licenceId req.device)
          call (.sign { licenceId := licence.licenceId, device := req.device, nonce := req.nonce,
                        status := "active", leaseHours := cfg.leaseHours,
                        seatsUsed := (req.device :: known).dedup.length,
                        seatsAllowed := some seats })
    | none => do
        call (.touchDevice licence.licenceId req.device)
        call (.sign { licenceId := licence.licenceId, device := req.device, nonce := req.nonce,
                      status := "active", leaseHours := cfg.leaseHours,
                      seatsUsed := (req.device :: known).dedup.length })

/-- `decide`. -/
def decideLease (cfg : ServerConfig) (req : LeaseRequest) : ServerProg Reply :=
  if req.device.length ≠ 64 ∨ req.nonce.length = 0 ∨ req.nonce.length > 64 then
    return .error "malformed request"
  else
    match cfg.verify req.licence with
    | .error refusal => return .error ("licence rejected: " ++ refusal)
    | .ok licence => do
        match ← call (.get licence.licenceId) with
        | some row => answerRow cfg req licence row
        | none =>
            if !cfg.autoRegister then
              call (.sign { licenceId := licence.licenceId, device := req.device,
                            nonce := req.nonce, status := "suspended", leaseHours := 1,
                            message := "this licence is not registered with the vendor" })
            else do
              call (.register licence.licenceId licence.issuedTo licence.maxAccounts)
              match ← call (.get licence.licenceId) with
              | some row => answerRow cfg req licence row
              | none => return .error "AssertionError"

/-- What the vendor does on the same database. -/
inductive AdminMove
  | register (licenceId issuedTo : String) (seats : Option ℤ) (now : ℤ)
  | setStatus (licenceId status reason : String)
  | resetDevices (licenceId : String)

def AdminMove.apply : AdminMove → Registry → Registry
  | register licenceId issuedTo seats now, s => s.register licenceId issuedTo seats now
  | setStatus licenceId status reason, s => s.setStatus licenceId status reason
  | resetDevices licenceId, s => s.resetDevices licenceId

def serverMachine (cfg : ServerConfig) :
    Machine Registry ℤ LeaseRequest AdminMove Reply Action.Answer where
  code := decideLease cfg
  perform := performAction
  outside := AdminMove.apply

/-! ## What the tables hold after a step -/

namespace Registry

variable (s : Registry)

theorem get?_register (id id' issuedTo : String) (seats : Option ℤ) (now : ℤ) :
    (s.register id issuedTo seats now).licences.get? id' =
      if id' = id then
        some (match s.licences.get? id with
          | some row => { row with seats := seats, issuedTo := issuedTo }
          | none => ⟨issuedTo, "active", "", seats, now⟩)
      else s.licences.get? id' := by
  rw [register]
  split <;> exact Dict.get?_set _ _ _ _

theorem register_keeps (id issuedTo : String) (seats : Option ℤ) (now : ℤ) :
    (s.register id issuedTo seats now).devices = s.devices ∧
      (s.register id issuedTo seats now).answering = s.answering ∧
      (s.register id issuedTo seats now).counted = s.counted ∧
      (s.register id issuedTo seats now).signed = s.signed := by
  rw [register]
  split <;> exact ⟨rfl, rfl, rfl, rfl⟩

theorem touchDevice_keeps (id device : String) (now : ℤ) :
    (s.touchDevice id device now).licences = s.licences ∧
      (s.touchDevice id device now).answering = s.answering ∧
      (s.touchDevice id device now).signed = s.signed := by
  rw [touchDevice]
  split <;> exact ⟨rfl, rfl, rfl⟩

variable {s}

theorem mem_devicesOf {id device : String} :
    device ∈ s.devicesOf id ↔ (id, device) ∈ s.devices.keys := by
  simp [devicesOf]

theorem contains_devices {id device : String} :
    s.devices.contains (id, device) = true ↔ device ∈ s.devicesOf id := by
  rw [mem_devicesOf, Dict.contains, Option.isSome_iff_ne_none, ne_eq, Dict.get?_eq_none_iff,
    not_not]

theorem devicesOf_congr {s' : Registry} (h : s'.devices = s.devices) (id : String) :
    s'.devicesOf id = s.devicesOf id := by
  rw [devicesOf, h, devicesOf]

theorem devicesOf_touchDevice (id id' device : String) (now : ℤ) :
    (s.touchDevice id device now).devicesOf id' =
      if id' = id ∧ device ∉ s.devicesOf id then s.devicesOf id' ++ [device]
      else s.devicesOf id' := by
  have hkeys : ∀ seen : ℤ × ℤ, (s.devices.set (id, device) seen).keys =
      if device ∉ s.devicesOf id then s.devices.keys ++ [(id, device)] else s.devices.keys := by
    intro seen
    by_cases hmem : (id, device) ∈ s.devices.keys
    · rw [Dict.keys_set_of_mem hmem, if_neg (not_not.mpr (mem_devicesOf.mpr hmem))]
    · rw [if_pos (fun h => hmem (mem_devicesOf.mp h)), Dict.keys, Dict.items_set_of_notMem hmem,
        List.map_append]
      rfl
  have hafter : (s.touchDevice id device now).devices.keys =
      if device ∉ s.devicesOf id then s.devices.keys ++ [(id, device)] else s.devices.keys := by
    rw [touchDevice]
    split <;> exact hkeys _
  have hsplit : (s.touchDevice id device now).devicesOf id' =
      ((if device ∉ s.devicesOf id then s.devices.keys ++ [(id, device)] else s.devices.keys).filter
        fun key => key.1 = id').map Prod.snd := by
    rw [devicesOf, hafter]
  by_cases hnew : device ∉ s.devicesOf id
  · rw [if_pos hnew, List.filter_append, List.map_append] at hsplit
    by_cases hid : id' = id
    · rw [hsplit, if_pos ⟨hid, hnew⟩, hid]
      simp [devicesOf]
    · have hne : id ≠ id' := fun h => hid h.symm
      rw [hsplit, if_neg fun h => hid h.1]
      simp [devicesOf, hne]
  · rw [if_neg hnew] at hsplit
    rw [hsplit, if_neg fun h => hnew h.2, devicesOf]

theorem counted_touchDevice (id device : String) (now : ℤ) (t : ℕ) :
    (s.touchDevice id device now).counted t =
      if device ∉ s.devicesOf id then outdate id (s.counted t) else s.counted t := by
  rw [touchDevice]
  split
  · rename_i seen hseen
    have hmem : device ∈ s.devicesOf id := by
      rw [← contains_devices, Dict.contains, hseen]
      rfl
    rw [if_neg (not_not.mpr hmem)]
  · rename_i hnone
    have hnew : device ∉ s.devicesOf id := by
      rw [mem_devicesOf]
      exact (Dict.get?_eq_none_iff _ _).mp hnone
    rw [if_pos hnew]

theorem devicesOf_resetDevices {id id' : String} (h : id' ≠ id) :
    (s.resetDevices id).devicesOf id' = s.devicesOf id' := by
  have hkeys : (s.resetDevices id).devices.keys =
      s.devices.keys.filter fun key => key.1 ≠ id := by
    rw [Dict.keys, Dict.keys, List.filter_map]
    rfl
  rw [devicesOf, hkeys, List.filter_filter, devicesOf]
  congr 1
  apply List.filter_congr
  intro key _
  by_cases hkey : key.1 = id'
  · simp [hkey, h]
  · simp [hkey]

end Registry

/-! ## Seats and signatures -/

variable (id : String) (s : Registry)

def WithinSeats : Prop :=
  ∀ row n, s.licences.get? id = some row → row.seats = some n →
    ((s.devicesOf id).length : ℤ) ≤ max n 0

def Justified (id : String) (g : Signing) : Prop :=
  g.lease.licenceId = id → g.lease.status = "active" →
    g.status = some "active" ∧ g.registered = true

structure Inv (id : String) (s : Registry) : Prop where
  within : WithinSeats id s
  justified : ∀ g ∈ s.signed, Justified id g
  unknown : s.licences.get? id = none → s.devicesOf id = []

def Offers (seats : Option ℤ) : Prop :=
  ∃ row, s.licences.get? id = some row ∧
    ∀ n, row.seats = some n → ∃ m, seats = some m ∧ m ≤ n

def Active : Prop := ∃ row, s.licences.get? id = some row ∧ row.status = "active"

def Answering (t : ℕ) : Prop :=
  s.answering t = some (id, true) ∨ s.answering t = some (id, false) ∧ Active id s

def Counted (t : ℕ) (known : List String) : Prop :=
  s.counted t = some (id, true) ∨ s.counted t = some (id, false) ∧ s.devicesOf id = known

structure Rely (id : String) (t : ℕ) (s s' : Registry) : Prop where
  offers : ∀ seats, Offers id s seats → Offers id s' seats
  registered : ∀ device ∈ s.devicesOf id, device ∈ s'.devicesOf id
  answering : Answering id s t → Answering id s' t
  counted : ∀ known, Counted id s t known → Counted id s' t known

theorem Rely.refl (t : ℕ) : Rely id t s s :=
  ⟨fun _ h => h, fun _ h => h, fun h => h, fun _ h => h⟩

theorem Rely.trans {id : String} {t : ℕ} {s₁ s₂ s₃ : Registry} (h₁₂ : Rely id t s₁ s₂)
    (h₂₃ : Rely id t s₂ s₃) : Rely id t s₁ s₃ where
  offers seats h := h₂₃.offers seats (h₁₂.offers seats h)
  registered d h := h₂₃.registered d (h₁₂.registered d h)
  answering h := h₂₃.answering (h₁₂.answering h)
  counted known h := h₂₃.counted known (h₁₂.counted known h)

def NotLowered (seats : Option ℤ) : Prop :=
  ∀ row n, s.licences.get? id = some row → seats = some n → ∃ m, row.seats = some m ∧ m ≤ n

def SeatFree : Prop :=
  ∀ row n, s.licences.get? id = some row → row.seats = some n →
    ((s.devicesOf id).length : ℤ) < n

def Undisturbed : Action → Prop
  | .register id' _ seats => id' = id → NotLowered id s seats
  | _ => True

def UndisturbedOutside : AdminMove → Prop
  | .register id' _ seats _ => id' = id → NotLowered id s seats
  | .resetDevices id' => id' ≠ id
  | .setStatus .. => True

/-- Where another request has added a device since the thread read them, a seat is
still free as it adds its own; where the vendor has withdrawn the licence since
the thread read its row, it is active again as the lease is signed. -/
def Timely (t : ℕ) : Action → Prop
  | .touchDevice id' device =>
      id' = id → device ∉ s.devicesOf id → s.counted t = some (id, true) → SeatFree id s
  | .sign lease =>
      lease.licenceId = id → lease.status = "active" → s.answering t = some (id, true) →
        Active id s
  | _ => True

section Decide

variable (id : String) (s : Registry)

instance (seats : Option ℤ) : Decidable (NotLowered id s seats) :=
  decidable_of_iff
    (∀ row ∈ s.licences.get? id, ∀ n ∈ seats, ∃ m ∈ row.seats, m ≤ n)
    ⟨fun h row n hrow hn => h row hrow n hn, fun h row hrow n hn => h row n hrow hn⟩

instance : Decidable (SeatFree id s) :=
  decidable_of_iff
    (∀ row ∈ s.licences.get? id, ∀ n ∈ row.seats, ((s.devicesOf id).length : ℤ) < n)
    ⟨fun h row n hrow hn => h row hrow n hn, fun h row hrow n hn => h row n hrow hn⟩

instance : Decidable (Active id s) :=
  decidable_of_iff (∃ row ∈ s.licences.get? id, row.status = "active") Iff.rfl

instance : ∀ a, Decidable (Undisturbed id s a)
  | .register _ _ _ => inferInstanceAs (Decidable (_ → _))
  | .get _ | .devices _ | .touchDevice _ _ | .sign _ => inferInstanceAs (Decidable True)

instance : ∀ x, Decidable (UndisturbedOutside id s x)
  | .register _ _ _ _ => inferInstanceAs (Decidable (_ → _))
  | .resetDevices _ => inferInstanceAs (Decidable (_ ≠ _))
  | .setStatus _ _ _ => inferInstanceAs (Decidable True)

instance (t : ℕ) : ∀ a, Decidable (Timely id s t a)
  | .touchDevice _ _ => inferInstanceAs (Decidable (_ → _ → _ → _))
  | .sign _ => inferInstanceAs (Decidable (_ → _ → _ → _))
  | .get _ | .devices _ | .register _ _ _ => inferInstanceAs (Decidable True)

end Decide

section Steps

variable {id id' : String} {s s' : Registry}

@[simp] theorem outdate_eq_outdated {reading : Option (String × Bool)} :
    outdate id' reading = some (id, true) ↔
      reading = some (id, true) ∨ reading = some (id, false) ∧ id = id' := by
  rcases reading with - | ⟨i, b⟩
  · simp [outdate]
  · cases b <;> simp [outdate]
    exact fun h => by rw [h]

@[simp] theorem outdate_eq_current {reading : Option (String × Bool)} :
    outdate id' reading = some (id, false) ↔ reading = some (id, false) ∧ id ≠ id' := by
  rcases reading with - | ⟨i, b⟩
  · simp [outdate]
  · cases b <;> simp [outdate]
    exact fun h => by rw [h]

theorem Inv.of_same (hs : Inv id s) (hlicences : s'.licences.get? id = s.licences.get? id)
    (hdevices : s'.devicesOf id = s.devicesOf id) (hsigned : s'.signed = s.signed) :
    Inv id s' := by
  refine ⟨?_, ?_, ?_⟩
  · intro row n hrow hn
    rw [hdevices]
    rw [hlicences] at hrow
    exact hs.within row n hrow hn
  · rw [hsigned]
    exact hs.justified
  · rw [hlicences, hdevices]
    exact hs.unknown

theorem Rely.of_same {t : ℕ} (hlicences : s'.licences.get? id = s.licences.get? id)
    (hdevices : s'.devicesOf id = s.devicesOf id)
    (hanswering : s'.answering t = s.answering t) (hcounted : s'.counted t = s.counted t) :
    Rely id t s s' where
  offers seats h := by
    rwa [Offers, hlicences]
  registered d h := by
    rwa [hdevices]
  answering h := by
    rwa [Answering, Active, hanswering, hlicences]
  counted known h := by
    rwa [Counted, hcounted, hdevices]

theorem Inv.register {issuedTo : String} {seats : Option ℤ} {now : ℤ} (hs : Inv id s)
    (h : id' = id → NotLowered id s seats) :
    Inv id (s.register id' issuedTo seats now) ∧
      ∀ t, Rely id t s (s.register id' issuedTo seats now) := by
  obtain ⟨hdevices, hanswering, hcounted, hsigned⟩ := s.register_keeps id' issuedTo seats now
  have hof := Registry.devicesOf_congr hdevices id
  have hget := s.get?_register id' id issuedTo seats now
  by_cases hid : id = id'
  · subst hid
    rw [if_pos rfl] at hget
    refine ⟨⟨?_, ?_, ?_⟩, fun t => ⟨?_, ?_, ?_, ?_⟩⟩
    · intro row n hrow hn
      rw [hof]
      rw [hget, Option.some.injEq] at hrow
      rcases hold : s.licences.get? id with - | old
      · rw [hs.unknown hold]
        exact le_max_right n 0
      · rw [hold] at hrow
        subst hrow
        obtain ⟨m, hm, hle⟩ := h rfl old n hold hn
        exact (hs.within old m hold hm).trans (max_le_max_right 0 hle)
    · rw [hsigned]
      exact hs.justified
    · intro hnone
      rw [hget] at hnone
      cases hnone
    · rintro offered ⟨old, hold, hoffered⟩
      rw [hold] at hget
      refine ⟨_, hget, ?_⟩
      intro n hn
      obtain ⟨m, hm, hle⟩ := h rfl old n hold hn
      obtain ⟨k, hk, hkm⟩ := hoffered m hm
      exact ⟨k, hk, hkm.trans hle⟩
    · rw [hof]
      exact fun _ hd => hd
    · rw [Answering, Answering, hanswering]
      rintro (hold | ⟨hread, row, hrow, hactive⟩)
      · exact .inl hold
      · rw [hrow] at hget
        exact .inr ⟨hread, _, hget, hactive⟩
    · intro known
      rw [Counted, Counted, hcounted, hof]
      exact fun hk => hk
  · rw [if_neg hid] at hget
    exact ⟨hs.of_same hget hof hsigned, fun t =>
      .of_same hget hof (congrFun hanswering t) (congrFun hcounted t)⟩

theorem Inv.setStatus {status reason : String} (hs : Inv id s) :
    Inv id (s.setStatus id' status reason) ∧
      ∀ t, Rely id t s (s.setStatus id' status reason) := by
  rw [Registry.setStatus]
  split
  · rename_i row hrow
    have hget := Dict.get?_set s.licences id' id { row with status := status, reason := reason }
    by_cases hid : id = id'
    · subst hid
      rw [if_pos rfl] at hget
      refine ⟨⟨?_, hs.justified, ?_⟩, fun t => ⟨?_, fun _ hd => hd, ?_, fun _ hk => hk⟩⟩
      · intro row' n hrow' hn
        dsimp only at hrow'
        rw [hget, Option.some.injEq] at hrow'
        subst hrow'
        exact hs.within row n hrow hn
      · intro hnone
        dsimp only at hnone
        rw [hget] at hnone
        cases hnone
      · rintro seats ⟨old, hold, hseats⟩
        rw [hrow, Option.some.injEq] at hold
        subst hold
        exact ⟨_, hget, hseats⟩
      · intro hread
        by_cases hactive : status = "active"
        · simp only [Answering, if_pos hactive]
          exact hread.imp_right fun hold => ⟨hold.1, _, hget, hactive⟩
        · simp only [Answering, if_neg hactive, outdate_eq_outdated]
          exact .inl (hread.imp_right fun hold => ⟨hold.1, trivial⟩)
    · rw [if_neg hid] at hget
      refine ⟨hs.of_same hget (Registry.devicesOf_congr rfl id) rfl, fun t =>
        ⟨?_, fun _ hd => hd, ?_, fun _ hk => hk⟩⟩
      · rintro seats ⟨old, hold, hseats⟩
        exact ⟨old, hget.trans hold, hseats⟩
      · rintro (hread | ⟨hread, old, hold, hactive⟩)
        · left
          dsimp only
          split
          · exact hread
          · exact outdate_eq_outdated.mpr (.inl hread)
        · right
          refine ⟨?_, old, hget.trans hold, hactive⟩
          dsimp only
          split
          · exact hread
          · exact outdate_eq_current.mpr ⟨hread, hid⟩
  · exact ⟨hs, .refl id s⟩

theorem Inv.resetDevices (hs : Inv id s) (h : id' ≠ id) :
    Inv id (s.resetDevices id') ∧ ∀ t, Rely id t s (s.resetDevices id') := by
  have hof : (s.resetDevices id').devicesOf id = s.devicesOf id :=
    s.devicesOf_resetDevices (Ne.symm h)
  exact ⟨hs.of_same rfl hof rfl, fun t => .of_same rfl hof rfl rfl⟩

theorem seatFree_of_counted {t : ℕ} {seats : Option ℤ} {known : List String}
    (hoffers : Offers id s seats) (hcounted : Counted id s t known)
    (hfree : ∀ n, seats = some n → (known.length : ℤ) < n)
    (htimely : s.counted t = some (id, true) → SeatFree id s) : SeatFree id s := by
  rcases hcounted with houtdated | ⟨-, hknown⟩
  · exact htimely houtdated
  · obtain ⟨row, hrow, hseats⟩ := hoffers
    intro row' n hrow' hn
    rw [hrow, Option.some.injEq] at hrow'
    subst hrow'
    obtain ⟨m, hm, hle⟩ := hseats n hn
    rw [hknown]
    exact (hfree m hm).trans_le hle

theorem Inv.touchDevice {device : String} {now : ℤ} (hs : Inv id s)
    (hknown : id' = id → s.licences.get? id ≠ none)
    (h : id' = id → device ∉ s.devicesOf id → SeatFree id s) :
    Inv id (s.touchDevice id' device now) := by
  obtain ⟨hlicences, -, hsigned⟩ := s.touchDevice_keeps id' device now
  have hof := s.devicesOf_touchDevice id' id device now
  by_cases hnew : id = id' ∧ device ∉ s.devicesOf id'
  · obtain ⟨rfl, hnew⟩ := hnew
    rw [if_pos ⟨rfl, hnew⟩] at hof
    refine ⟨?_, ?_, ?_⟩
    · intro row n hrow hn
      rw [hlicences] at hrow
      have hfree := h rfl hnew row n hrow hn
      rw [hof, List.length_append, List.length_singleton]
      push_cast
      omega
    · rw [hsigned]
      exact hs.justified
    · intro hnone
      rw [hlicences] at hnone
      exact absurd hnone (hknown rfl)
  · rw [if_neg hnew] at hof
    exact hs.of_same (by rw [hlicences]) hof hsigned

theorem hasDevice_touchDevice {device : String} {now : ℤ} :
    device ∈ (s.touchDevice id device now).devicesOf id := by
  rw [s.devicesOf_touchDevice id id device now]
  by_cases hmem : device ∈ s.devicesOf id
  · rwa [if_neg fun h => h.2 hmem]
  · simp [hmem]

theorem rely_touchDevice {device : String} {now : ℤ} {t : ℕ} :
    Rely id t s (s.touchDevice id' device now) := by
  obtain ⟨hlicences, hanswering, -⟩ := s.touchDevice_keeps id' device now
  have hof := s.devicesOf_touchDevice id' id device now
  have hcounted := s.counted_touchDevice id' device now t
  refine ⟨?_, ?_, ?_, ?_⟩
  · intro seats h
    rwa [Offers, hlicences]
  · intro d hd
    rw [hof]
    split
    · exact List.mem_append_left _ hd
    · exact hd
  · intro h
    rwa [Answering, Active, hanswering, hlicences]
  · rintro known (houtdated | ⟨hread, hknown⟩)
    · left
      rw [hcounted]
      split
      · exact outdate_eq_outdated.mpr (.inl houtdated)
      · exact houtdated
    · by_cases hnew : device ∉ s.devicesOf id'
      · rw [if_pos hnew] at hcounted
        by_cases hid : id = id'
        · left
          rw [hcounted]
          exact outdate_eq_outdated.mpr (.inr ⟨hread, hid⟩)
        · right
          rw [hcounted, hof, if_neg fun h => hid h.1]
          exact ⟨outdate_eq_current.mpr ⟨hread, hid⟩, hknown⟩
      · right
        rw [hcounted, if_neg hnew, hof, if_neg fun h => hnew h.2]
        exact ⟨hread, hknown⟩

theorem rely_noteRow {t u : ℕ} (h : u ≠ t) {row : Option LicenceRow} :
    Rely id u s (s.noteRow t id' row) :=
  .of_same rfl rfl (Function.update_of_ne h _ _) rfl

theorem rely_noteDevices {t u : ℕ} (h : u ≠ t) : Rely id u s (s.noteDevices t id') :=
  .of_same rfl rfl rfl (Function.update_of_ne h _ _)

theorem rely_noteAdded {t u : ℕ} (h : u ≠ t) : Rely id u s (s.noteAdded t) :=
  .of_same rfl rfl rfl (Function.update_of_ne h _ _)

theorem rely_noteAnswered {t u : ℕ} (h : u ≠ t) : Rely id u s (s.noteAnswered t) :=
  .of_same rfl rfl (Function.update_of_ne h _ _) (Function.update_of_ne h _ _)

end Steps

/-! ## Requests -/

def discipline (cfg : ServerConfig) (id : String) : Discipline (serverMachine cfg) where
  inv := Inv id
  rely := Rely id
  meetsStart _ _ := True
  meets s t _ a _ := Undisturbed id s a ∧ Timely id s t a
  meetsOutside := UndisturbedOutside id
  effect _ _ _ _ _ := True
  rely_refl t s := Rely.refl id s t
  rely_trans _ _ _ _ h₁₂ h₂₃ := h₁₂.trans h₂₃
  outside_keeps s x hs hx := by
    cases x with
    | register id' issuedTo seats now => exact hs.register hx
    | setStatus id' status reason => exact hs.setStatus
    | resetDevices id' => exact hs.resetDevices hx

instance (cfg : ServerConfig) (id : String) (p : Pool Registry LeaseRequest Reply Action.Answer) :
    ∀ m, Decidable ((discipline cfg id).Meets p m)
  | .start _ _ => inferInstanceAs (Decidable True)
  | .step t _ =>
      match h : p.calls t with
      | some ⟨_, .act a _⟩ => decidable_of_iff (Undisturbed id p.shared a ∧ Timely id p.shared t a)
          (by rw [Discipline.Meets, h]; rfl)
      | some ⟨_, .ret _⟩ => isTrue (by rw [Discipline.Meets, h]; trivial)
      | none => isTrue (by rw [Discipline.Meets, h]; trivial)
  | .outside x => inferInstanceAs (Decidable (UndisturbedOutside id p.shared x))

section Triples

variable {cfg : ServerConfig} {id : String} {t : ℕ} {op : LeaseRequest}

def HoldsRow (id : String) (t : ℕ) (id' : String) (seats : Option ℤ) (s : Registry) : Prop :=
  id' = id → Offers id s seats ∧ Answering id s t

def HoldsDevices (id : String) (t : ℕ) (id' : String) (seats : Option ℤ) (known : List String)
    (s : Registry) : Prop :=
  id' = id → Offers id s seats ∧ Answering id s t ∧ Counted id s t known

def HasDevice (id : String) (t : ℕ) (id' device : String) (s : Registry) : Prop :=
  id' = id → Answering id s t ∧ device ∈ s.devicesOf id

theorem holdsRow_stable {id' : String} {seats : Option ℤ} :
    (discipline cfg id).Stable t (HoldsRow id t id' seats) :=
  fun _ _ hrely h hid => ⟨hrely.offers _ (h hid).1, hrely.answering (h hid).2⟩

theorem holdsDevices_stable {id' : String} {seats : Option ℤ} {known : List String} :
    (discipline cfg id).Stable t (HoldsDevices id t id' seats known) :=
  fun _ _ hrely h hid => ⟨hrely.offers _ (h hid).1, hrely.answering (h hid).2.1,
    hrely.counted _ (h hid).2.2⟩

theorem hasDevice_stable {id' device : String} :
    (discipline cfg id).Stable t (HasDevice id t id' device) :=
  fun _ _ hrely h hid => ⟨hrely.answering (h hid).1, hrely.registered device (h hid).2⟩

theorem triple_get {id' : String} :
    (discipline cfg id).Triple t op (fun _ => True) (call (.get id'))
      fun row s => ∀ r, row = some r → r.status = "active" → HoldsRow id t id' r.seats s := by
  apply Discipline.Triple.action fun _ _ _ _ => trivial
  intro s e s' b _ hinv _ hperform
  have hpair := Option.some.inj hperform
  rw [Prod.mk.injEq] at hpair
  obtain ⟨rfl, rfl⟩ := hpair
  refine ⟨trivial, Inv.of_same hinv rfl rfl rfl, fun u hu => rely_noteRow hu, ?_⟩
  rintro row hrow hactive rfl
  refine ⟨⟨row, hrow, fun n hn => ⟨n, hn, le_rfl⟩⟩, .inr ⟨?_, row, hrow, hactive⟩⟩
  dsimp only [Registry.noteRow]
  rw [hrow, Function.update_self, Option.map_some, hactive, if_pos rfl]

theorem triple_register {id' issuedTo : String} {seats : Option ℤ} :
    (discipline cfg id).Triple t op (fun _ => True) (call (.register id' issuedTo seats))
      fun _ _ => True := by
  apply Discipline.Triple.action fun _ _ _ _ => trivial
  intro s e s' b _ hinv hmeets hperform
  have hs' : s.register id' issuedTo seats e = s' := congrArg Prod.fst (Option.some.inj hperform)
  subst hs'
  obtain ⟨hinv', hrely⟩ := hinv.register hmeets.1
  exact ⟨trivial, hinv', fun u _ => hrely u, trivial⟩

theorem triple_devices {id' : String} {seats : Option ℤ} :
    (discipline cfg id).Triple t op (HoldsRow id t id' seats) (call (.devices id'))
      fun known s => HoldsDevices id t id' seats known s := by
  apply Discipline.Triple.action holdsRow_stable
  intro s e s' b hrow hinv _ hperform
  have hpair := Option.some.inj hperform
  rw [Prod.mk.injEq] at hpair
  obtain ⟨rfl, rfl⟩ := hpair
  refine ⟨trivial, Inv.of_same hinv rfl rfl rfl, fun u hu => rely_noteDevices hu, ?_⟩
  rintro rfl
  exact ⟨(hrow rfl).1, (hrow rfl).2, .inr ⟨Function.update_self t _ _, rfl⟩⟩

theorem triple_touchDevice {id' device : String} {seats : Option ℤ} {known : List String}
    (hfree : device ∉ known → ∀ n, seats = some n → (known.length : ℤ) < n) :
    (discipline cfg id).Triple t op (HoldsDevices id t id' seats known)
      (call (.touchDevice id' device)) fun _ s => HasDevice id t id' device s := by
  apply Discipline.Triple.action holdsDevices_stable
  intro s e s' b hholds hinv hmeets hperform
  have hs' : (s.touchDevice id' device e).noteAdded t = s' :=
    congrArg Prod.fst (Option.some.inj hperform)
  subst hs'
  have hinv' : Inv id (s.touchDevice id' device e) := by
    apply hinv.touchDevice
    · intro hid hnone
      obtain ⟨row, hrow, -⟩ := (hholds hid).1
      rw [hnone] at hrow
      cases hrow
    · intro hid hnew
      obtain ⟨hoffers, -, hcounted⟩ := hholds hid
      rcases hcounted with houtdated | ⟨hread, hknown⟩
      · exact hmeets.2 hid hnew houtdated
      · exact seatFree_of_counted hoffers (.inr ⟨hread, hknown⟩) (hfree (hknown ▸ hnew))
          (hmeets.2 hid hnew)
  refine ⟨trivial, Inv.of_same hinv' rfl rfl rfl, fun u hu =>
    rely_touchDevice.trans (rely_noteAdded hu), ?_⟩
  rintro rfl
  exact ⟨rely_touchDevice.answering (hholds rfl).2.1, hasDevice_touchDevice⟩

theorem signLease_ok {lease lease' : LeasePayload} (h : signLease lease = .ok lease') :
    lease'.licenceId = lease.licenceId ∧ lease'.device = lease.device ∧
      lease'.status = lease.status := by
  rw [signLease] at h
  split at h
  · cases h
  · split at h
    · cases h
    · cases h
      exact ⟨rfl, rfl, rfl⟩

theorem triple_sign {lease : LeasePayload} :
    (discipline cfg id).Triple t op
      (fun s => lease.status = "active" → HasDevice id t lease.licenceId lease.device s)
      (call (.sign lease)) fun _ _ => True := by
  apply Discipline.Triple.action
  · exact fun s s' hrely h hactive => hasDevice_stable s s' hrely (h hactive)
  intro s e s' b hhas hinv hmeets hperform
  simp only [serverMachine, performAction] at hperform
  split at hperform
  · have hs' : s.noteAnswered t = s' := congrArg Prod.fst (Option.some.inj hperform)
    subst hs'
    exact ⟨trivial, Inv.of_same hinv rfl rfl rfl, fun u hu => rely_noteAnswered hu, trivial⟩
  · rename_i lease' hsign
    obtain ⟨hid, hdevice, hstatus⟩ := signLease_ok hsign
    have hs' := congrArg Prod.fst (Option.some.inj hperform)
    dsimp only at hs'
    subst hs'
    refine ⟨trivial, ⟨hinv.within, ?_, hinv.unknown⟩, fun u hu =>
      .of_same rfl rfl (Function.update_of_ne hu _ _) (Function.update_of_ne hu _ _), trivial⟩
    intro g hg
    rcases List.mem_append.mp hg with hold | hnew
    · exact hinv.justified g hold
    · rw [List.mem_singleton] at hnew
      subst hnew
      intro hlicence hactive
      dsimp only at hlicence hactive ⊢
      rw [hid] at hlicence
      rw [hstatus] at hactive
      obtain ⟨hread, hregistered⟩ := hhas hactive hlicence
      obtain ⟨row, hrow, hrowActive⟩ : Active id s := by
        rcases hread with houtdated | ⟨-, hcurrent⟩
        · exact hmeets.2 hlicence hactive houtdated
        · exact hcurrent
      refine ⟨?_, ?_⟩
      · rw [hid, hlicence, hrow, Option.map_some, hrowActive]
      · rw [hid, hdevice, hlicence, Registry.contains_devices]
        exact hregistered

theorem triple_sign_other {P : Registry → Prop} {lease : LeasePayload}
    (h : lease.status ≠ "active") :
    (discipline cfg id).Triple t op P (call (.sign lease)) fun _ _ => True :=
  triple_sign.weaken fun _ _ hactive => absurd hactive h

theorem suspended_ne_active : ("suspended" : String) ≠ "active" := by decide

theorem triple_answerRow (req : LeaseRequest) (licence : GenuineLicence) (row : LicenceRow) :
    (discipline cfg id).Triple t op
      (fun s => row.status = "active" → HoldsRow id t licence.licenceId row.seats s)
      (answerRow cfg req licence row) fun _ _ => True := by
  have hgrant : ∀ (known : List String) (lease : LeasePayload),
      lease.licenceId = licence.licenceId → lease.device = req.device →
      (req.device ∉ known → ∀ n, row.seats = some n → (known.length : ℤ) < n) →
      (discipline cfg id).Triple t op (HoldsDevices id t licence.licenceId row.seats known)
        (do call (.touchDevice licence.licenceId req.device); call (.sign lease))
        fun _ _ => True := by
    intro known lease hlicence hdevice hfree
    apply Discipline.Triple.bind (triple_touchDevice hfree)
    intro _
    apply triple_sign.weaken
    intro s hs _
    rwa [hlicence, hdevice]
  rw [answerRow]
  split
  · rename_i hstatus
    exact triple_sign_other hstatus
  · rename_i hstatus
    rw [not_not] at hstatus
    apply Discipline.Triple.bind (triple_devices.weaken fun s hs => hs hstatus)
    intro known
    rcases hseats : row.seats with - | seats
    · rw [hseats] at hgrant
      exact hgrant known _ rfl rfl fun _ n hn => by cases hn
    · dsimp only
      split
      · exact triple_sign_other suspended_ne_active
      · rename_i hroom
        rw [hseats] at hgrant
        refine hgrant known _ rfl rfl fun hnew n hn => ?_
        rw [Option.some.injEq] at hn
        subst hn
        by_contra hfull
        exact hroom ⟨hnew, not_lt.mp hfull⟩

end Triples

theorem verified (cfg : ServerConfig) (id : String) : (discipline cfg id).Verified := by
  intro t op
  apply Discipline.Triple.weaken (P := fun _ => True) _ fun _ _ => trivial
  change (discipline cfg id).Triple t op _ (decideLease cfg op) _
  rw [decideLease]
  split
  · exact Discipline.Triple.ret fun _ _ => trivial
  · split
    · exact Discipline.Triple.ret fun _ _ => trivial
    · rename_i licence _
      apply Discipline.Triple.bind triple_get
      intro row
      rcases row with - | row
      · dsimp only
        apply Discipline.Triple.weaken (P := fun _ => True) _ fun _ _ => trivial
        split
        · exact triple_sign_other suspended_ne_active
        · apply Discipline.Triple.bind triple_register
          intro _
          apply Discipline.Triple.bind triple_get
          intro row
          rcases row with - | row
          · exact Discipline.Triple.ret fun _ _ => trivial
          · exact (triple_answerRow op licence row).weaken fun s hs => hs row rfl
      · exact (triple_answerRow op licence row).weaken fun s hs => hs row rfl

abbrev ServerMove : Type := PoolMove ℤ LeaseRequest AdminMove

def Registry.opened (licences : Dict String LicenceRow)
    (devices : Dict (String × String) (ℤ × ℤ)) : Registry :=
  ⟨licences, devices, fun _ => none, fun _ => none, []⟩

def runFrom (cfg : ServerConfig) (s : Registry) (ms : List ServerMove) : Registry :=
  (ms.foldl (serverMachine cfg).step (Machine.quiet s)).shared

/-- The seats of a licence.  In every run of requests and of the vendor's
administration in which the seats of the licence are not lowered and no device
is released, and in which a request that another has overtaken still finds a free
seat, or an active licence, the licence never has more devices than seats, and
every active lease was signed for a registered device of an active licence. -/
theorem seats_never_exceeded (cfg : ServerConfig) (id : String)
    (licences : Dict String LicenceRow) (devices : Dict (String × String) (ℤ × ℤ))
    (hseats : WithinSeats id (.opened licences devices))
    (hunknown : licences.get? id = none → (Registry.opened licences devices).devicesOf id = [])
    (ms : List ServerMove)
    (hms : Along (serverMachine cfg).step (discipline cfg id).Meets
      (Machine.quiet (.opened licences devices)) ms) :
    WithinSeats id (runFrom cfg (.opened licences devices) ms) ∧
      ∀ g ∈ (runFrom cfg (.opened licences devices) ms).signed, Justified id g := by
  have hstart : Inv id (.opened licences devices) := by
    refine ⟨hseats, ?_, hunknown⟩
    intro g hg
    cases hg
  have hsound := Discipline.sound_run (verified cfg id) (Discipline.sound_quiet hstart) hms
  exact ⟨hsound.1.within, hsound.1.justified⟩

/-! ## Small runs -/

def plainServer : ServerConfig where
  verify name := .ok ⟨name, "customer", some 1⟩
  leaseHours := 72
  autoRegister := false

def withSeats (n : ℤ) : Dict String LicenceRow :=
  Dict.ofEntries [("licence", ⟨"customer", "active", "", some n, 0⟩)]

def oneSeat : Dict String LicenceRow := withSeats 1

def deviceOf (c : Char) : String := String.ofList (List.replicate 64 c)

def requestOf (c : Char) : LeaseRequest := ⟨"licence", deviceOf c, "nonce"⟩

def twoSeatMoves : List ServerMove :=
  [.start 0 (requestOf 'a'), .start 1 (requestOf 'b'), .step 0 0, .step 1 0, .step 0 0,
    .step 1 0, .step 0 0, .step 1 0, .step 0 0, .step 1 0,
    .start 2 (requestOf 'c'), .step 2 0, .step 2 0, .step 2 0,
    .start 0 (requestOf 'a'), .step 0 0, .outside (.setStatus "licence" "suspended" ""),
    .step 0 0, .step 0 0, .outside (.setStatus "licence" "active" ""), .step 0 0]

theorem seats_kept_twoSeats :
    WithinSeats "licence" (runFrom plainServer (.opened (withSeats 2) Dict.empty) twoSeatMoves) ∧
      ∀ g ∈ (runFrom plainServer (.opened (withSeats 2) Dict.empty) twoSeatMoves).signed,
        Justified "licence" g := by
  apply seats_never_exceeded
  · intro row n hget hn
    exact (le_max_right n 0)
  · intro hnone
    cases hnone
  · decide +kernel

def racingRequests : List ServerMove :=
  [.start 0 (requestOf 'a'), .start 1 (requestOf 'b'), .step 0 0, .step 1 0, .step 0 0,
    .step 1 0, .step 0 0, .step 1 0, .step 0 0, .step 1 0]

def withdrawnWhileAnswering : List ServerMove :=
  [.start 0 (requestOf 'a'), .step 0 0, .outside (.setStatus "licence" "revoked" "chargeback"),
    .step 0 0, .step 0 0, .step 0 0]

/-- Two devices take one seat, by requests alone; and an active lease is signed
for a licence that is withdrawn. -/
theorem two_devices_take_one_seat :
    ∃ (cfg : ServerConfig) (id : String) (licences : Dict String LicenceRow)
      (racing withdrawn : List ServerMove),
      WithinSeats id (.opened licences Dict.empty) ∧
      (∀ m ∈ racing, ∀ x, m ≠ .outside x) ∧
      ¬ WithinSeats id (runFrom cfg (.opened licences Dict.empty) racing) ∧
      ∃ g ∈ (runFrom cfg (.opened licences Dict.empty) withdrawn).signed, ¬ Justified id g := by
  refine ⟨plainServer, "licence", oneSeat, racingRequests, withdrawnWhileAnswering, ?_, ?_, ?_, ?_⟩
  · intro row n hget hn
    exact (le_max_right n 0)
  · intro m hm x
    simp only [racingRequests, List.mem_cons, List.not_mem_nil, or_false] at hm
    rcases hm with rfl | rfl | rfl | rfl | rfl | rfl | rfl | rfl | rfl | rfl <;> exact nofun
  · intro hwithin
    have hrow : (runFrom plainServer (.opened oneSeat Dict.empty) racingRequests).licences.get?
        "licence" = some ⟨"customer", "active", "", some 1, 0⟩ := by decide +kernel
    have hdevices : ((runFrom plainServer (.opened oneSeat Dict.empty) racingRequests).devicesOf
        "licence").length = 2 := by decide +kernel
    have hle := hwithin _ 1 hrow rfl
    rw [hdevices] at hle
    exact absurd hle (by decide)
  · have hsigned : ((runFrom plainServer (.opened oneSeat Dict.empty)
        withdrawnWhileAnswering).signed.map fun g =>
          (g.lease.licenceId, g.lease.status, g.status)) =
        [("licence", "active", some "revoked")] := by decide +kernel
    obtain ⟨g, hg⟩ := List.exists_mem_of_length_pos (l :=
      (runFrom plainServer (.opened oneSeat Dict.empty) withdrawnWhileAnswering).signed) (by
        have hlength := congrArg List.length hsigned
        rw [List.length_map] at hlength
        rw [hlength]
        decide)
    have hmem := List.mem_map_of_mem (f := fun g : Signing =>
      (g.lease.licenceId, g.lease.status, g.status)) hg
    rw [hsigned, List.mem_singleton, Prod.mk.injEq, Prod.mk.injEq] at hmem
    refine ⟨g, hg, ?_⟩
    intro hjust
    have hactive := (hjust hmem.1 hmem.2.1).1
    rw [hmem.2.2] at hactive
    exact absurd hactive (by decide)

end SeatServer
end Sentinel
