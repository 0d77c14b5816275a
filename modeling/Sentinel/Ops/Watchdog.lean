import Sentinel.Core.AuditVerify
import Sentinel.Core.Money
import Sentinel.Support.DigitForms
import Sentinel.Support.Runs

/-!
# The dead-man watchdog

A process of its own reads the heartbeat file and engages the kill switch, a file
as well, when the decision loop has gone quiet.  Both files may hold anything.
Some contents of the heartbeat raise an error that its reader does not expect,
and the process ends.
-/

namespace Sentinel

variable {F : Type}

/-! ## Reading a file of JSON -/

inductive FileState where
  | missing
  | unreadable
  | bytes (content : List UInt8)
  deriving DecidableEq

inductive ReadError where
  | osError
  | jsonDecodeError
  | valueError
  | keyError
  | typeError
  | attributeError
  | overflowError
  | recursionError
  deriving DecidableEq

namespace Interpreter

def longInt (n : ℤ) : Bool := decide (10 ^ 4300 ≤ n.natAbs)

mutual

def anyLong : Json F → Bool
  | .int n => longInt n
  | .arr elements => anyLongElements elements
  | .obj members => anyLongMembers members
  | .null => false
  | .bool _ => false
  | .float _ => false
  | .str _ => false

def anyLongElements : List (Json F) → Bool
  | [] => false
  | j :: js => anyLong j || anyLongElements js

def anyLongMembers : List (Text × Json F) → Bool
  | [] => false
  | (_, j) :: ms => anyLong j || anyLongMembers ms

end

end Interpreter

/-- What the interpreter brings: its floating-point numbers, `int(str)`,
`str.strip`, and whether the scanner of a text, before it finds the text
malformed, runs into the recursion limit or into an integer too long to convert.
In a text that is well formed it comes upon every integer. -/
structure Interpreter (F : Type) where
  ops : FloatOps F
  intOfText : Text → Option ℤ
  strip : Text → Text
  tooDeep : Text → Bool
  tooLong : Text → Bool
  tooLong_iff : ∀ text j, Json.loads ops text = some j →
    (tooLong text = true ↔ Interpreter.anyLong j = true)

namespace Interpreter

/-- `path.read_text(encoding="utf-8")` of a file that exists. -/
def readText : FileState → Except ReadError Text
  | .missing => .error .osError
  | .unreadable => .error .osError
  | .bytes content =>
      match Utf8.decode content with
      | none => .error .valueError
      | some cs => .ok (Text.ofChars cs)

variable (py : Interpreter F)

/-- `json.loads` with the interpreter's limits. -/
def loads (text : Text) : Except ReadError (Json F) :=
  if py.tooDeep text then .error .recursionError
  else if py.tooLong text then .error .valueError
  else match Json.loads py.ops text with
  | none => .error .jsonDecodeError
  | some j => .ok j

def member? (members : List (Text × Json F)) (name : Text) : Option (Json F) :=
  ((members.filter fun m => decide (m.1 = name)).getLast?).map Prod.snd

/-- `int(value)`. -/
def toInt : Json F → Except ReadError ℤ
  | .null => .error .typeError
  | .bool b => .ok (if b then 1 else 0)
  | .int n => .ok n
  | .float x =>
      match py.ops.value x with
      | .finite q => .ok (if 0 ≤ q then ⌊q⌋ else ⌈q⌉)
      | .nan => .error .valueError
      | .infinity => .error .overflowError
      | .negInfinity => .error .overflowError
  | .str s =>
      match py.intOfText s with
      | none => .error .valueError
      | some n => .ok n
  | .arr _ => .error .typeError
  | .obj _ => .error .typeError

/-! ## `heartbeat_age` -/

inductive Age where
  | seconds (q : Dec)
  | infinite
  deriving DecidableEq

def clockToleranceSec : Dec := 5

variable (file : FileState)

/-- `int(data["ts_ns"])` of the file. -/
def stampOf : Except ReadError ℤ := do
  let text ← readText file
  match ← py.loads text with
  | .obj members =>
      match member? members (Text.ofString "ts_ns") with
      | none => .error .keyError
      | some value => py.toInt value
  | _ => .error .typeError

/-- The quotient that `heartbeat_age` forms. -/
def ageOf (wallNs : ℤ) : Except ReadError Dec := do
  let stamp ← py.stampOf file
  if floatLimit ≤ |wallNs - stamp| then .error .overflowError
  else .ok ((wallNs - stamp : ℤ) / 1000000000)

def tolerated : ReadError → Bool
  | .osError => true
  | .jsonDecodeError => true
  | .keyError => true
  | .valueError => true
  | .typeError => false
  | .attributeError => false
  | .overflowError => false
  | .recursionError => false

def heartbeatAge (wallNs : ℤ) : Except ReadError (Option Age) :=
  if file = .missing then .ok none
  else match py.ageOf file wallNs with
  | .error e => if tolerated e then .ok none else .error e
  | .ok age =>
      if age < -clockToleranceSec then .ok (some .infinite)
      else .ok (some (.seconds (max 0 age)))

/-! ## The kill switch -/

/-- `KillState`; what is read from the file is whatever it holds. -/
structure KillState (F : Type) where
  engaged : Bool
  reason : Json F
  engagedAtNs : Json F
  engagedBy : Json F

/-- `KillSwitch.read`. -/
def readKill : Except ReadError (KillState F) :=
  let str (s : String) : Json F := .str (Text.ofString s)
  match file with
  | .missing => .ok ⟨false, str "", .null, str ""⟩
  | .unreadable => .ok ⟨true, str "kill file exists but is unreadable", .null, str ""⟩
  | .bytes _ => do
      let raw := py.strip (← readText file)
      if raw = [] then return ⟨true, str "manual", .null, str "file"⟩
      match py.loads raw with
      | .ok (.obj members) =>
          let get name fallback := (member? members (Text.ofString name)).getD fallback
          return ⟨true, get "reason" (str "manual"), get "engaged_at_ns" .null,
            get "engaged_by" (str "file")⟩
      | .ok _ => .error .attributeError
      | .error .jsonDecodeError => return ⟨true, .str (raw.take 200), .null, str "file"⟩
      | .error e => .error e

/-- `_kill_engaged`: a kill file that cannot be read is engaged. -/
def killEngaged : Bool :=
  match py.readKill file with
  | .ok state => state.engaged
  | .error _ => true

theorem killEngaged_iff : py.killEngaged file = true ↔ file ≠ .missing := by
  rw [killEngaged]
  cases file with
  | missing => simp [readKill]
  | unreadable => simp [readKill]
  | bytes content =>
      simp only [readKill, ne_eq, reduceCtorEq, not_false_eq_true, iff_true]
      cases readText (.bytes content) with
      | error e => rfl
      | ok text =>
          simp only [bind, Except.bind]
          split_ifs
          · rfl
          · cases py.loads (py.strip text) with
            | error e => cases e <;> rfl
            | ok j => cases j <;> rfl

end Interpreter

/-! ## The loop -/

inductive DeadmanAction where
  | alert
  | closeOnly
  | flatten
  deriving DecidableEq

/-- The arguments of the process. -/
structure WatchdogArgs where
  timeoutSec : Dec
  action : DeadmanAction := .closeOnly
  once : Bool := false

inductive TripReason where
  | noHeartbeat (ageSec limitSec : Dec)
  | missingOrClocks
  deriving DecidableEq

/-- What an iteration puts on record. -/
inductive WatchdogEvent where
  | trip (action : DeadmanAction) (reason : TripReason) (reEngaged : Bool)
  | flattened
  | recovered (age : Option Interpreter.Age)
  deriving DecidableEq

/-- The process, and the kill file it shares with others. -/
structure Watchdog where
  alive : Bool := false
  tripped : Bool := false
  startedSec : Dec := 0
  kill : FileState := .missing
  events : List WatchdogEvent := []
  deriving DecidableEq

namespace Interpreter

variable (py : Interpreter F)

/-- `age is None or age > args.timeout`. -/
def isStale (timeoutSec : Dec) : Option Age → Bool
  | none => true
  | some .infinite => true
  | some (.seconds q) => decide (timeoutSec < q)

def tripReason (timeoutSec : Dec) : Option Age → TripReason
  | some (.seconds q) => .noHeartbeat q timeoutSec
  | some .infinite => .missingOrClocks
  | none => .missingOrClocks

/-- `KillSwitch.engage`: the file is written with the state. -/
def engage (w : Watchdog) (written : List UInt8) : Watchdog := { w with kill := .bytes written }

def inGrace (args : WatchdogArgs) (w : Watchdog) (monoSec : Dec) : Bool :=
  !args.once && decide (monoSec - w.startedSec < args.timeoutSec)

/-- One iteration of a running process; `written` is what `engage` would write. -/
def iterate (args : WatchdogArgs) (w : Watchdog) (heartbeat : FileState) (wallNs : ℤ)
    (monoSec : Dec) (written : List UInt8) : Except ReadError Watchdog := do
  let age ← py.heartbeatAge heartbeat wallNs
  let stale := isStale args.timeoutSec age
  if stale && inGrace args w monoSec then return w
  let after :=
    if stale && (!w.tripped || !py.killEngaged w.kill) then
      let first := !w.tripped
      let trip := .trip args.action (tripReason args.timeoutSec age) (!first)
      engage { w with
        tripped := true
        events := w.events ++ trip ::
          (if args.action = .flatten ∧ first = true then [.flattened] else []) } written
    else if !stale && w.tripped then
      { w with tripped := false, events := w.events ++ [.recovered age] }
    else w
  return { after with alive := !args.once }

end Interpreter

/-! ## Runs -/

/-- What happens to the process and the kill file: a start, an iteration, and
what others do to the file (an operator who releases it, or anybody who writes
it). -/
inductive WatchdogMove where
  | start (monoSec : Dec)
  | poll (heartbeat : FileState) (wallNs : ℤ) (monoSec : Dec) (written : List UInt8)
  | others (kill : FileState)

namespace Watchdog

variable (py : Interpreter F) (args : WatchdogArgs)

/-- An error that nobody expects ends the process. -/
def step (w : Watchdog) : WatchdogMove → Watchdog
  | .start monoSec =>
      match py.readKill w.kill with
      | .ok _ => { w with alive := true, tripped := false, startedSec := monoSec }
      | .error _ => { w with alive := false }
  | .poll heartbeat wallNs monoSec written =>
      if w.alive then
        match py.iterate args w heartbeat wallNs monoSec written with
        | .ok after => after
        | .error _ => { w with alive := false }
      else w
  | .others kill => { w with kill }

def Fresh (heartbeat : FileState) (wallNs : ℤ) : Prop :=
  ∃ age, py.ageOf heartbeat wallNs = .ok age ∧ -Interpreter.clockToleranceSec ≤ age ∧
    max 0 age ≤ args.timeoutSec

/-- What every iteration owes: it comes to its end; the kill switch is engaged at
its end when the heartbeat is not fresh and the grace period is over; and the
process never releases it. -/
structure Kept (w : Watchdog) (m : WatchdogMove) : Prop where
  ends : ∀ heartbeat wallNs monoSec written, m = .poll heartbeat wallNs monoSec written →
    w.alive = true → ∃ after, py.iterate args w heartbeat wallNs monoSec written = .ok after
  engages : ∀ heartbeat wallNs monoSec written, m = .poll heartbeat wallNs monoSec written →
    w.alive = true → ¬Fresh py args heartbeat wallNs →
    Interpreter.inGrace args w monoSec = false →
    py.killEngaged (w.step py args m).kill = true
  never_releases : (∀ kill, m ≠ .others kill) → py.killEngaged w.kill = true →
    py.killEngaged (w.step py args m).kill = true

end Watchdog

namespace Interpreter

/-- The value is one that `int` converts, or one it refuses with a `ValueError`. -/
def Stamps (py : Interpreter F) : Json F → Prop
  | .float x => py.ops.value x ≠ .infinity ∧ py.ops.value x ≠ .negInfinity
  | .bool _ => True
  | .int _ => True
  | .str _ => True
  | .null => False
  | .arr _ => False
  | .obj _ => False

/-- The file is one that the reader of heartbeats expects: where it can be read
as text, the text does not nest too deep, and where that is JSON, it is an object
whose `ts_ns`, if there is one, converts and is not out of all range. -/
def Expected (py : Interpreter F) (file : FileState) (wallNs : ℤ) : Prop :=
  ∀ text, readText file = .ok text → py.tooDeep text = false ∧
    ∀ j, Json.loads py.ops text = some j → anyLong j = false →
      ∃ members, j = .obj members ∧
        ∀ value, member? members (Text.ofString "ts_ns") = some value →
          py.Stamps value ∧ ∀ n, py.toInt value = .ok n → |wallNs - n| < floatLimit

end Interpreter

namespace Watchdog

def ReadsHeartbeat (py : Interpreter F) (w : Watchdog) : WatchdogMove → Prop
  | .poll heartbeat wallNs _ _ => w.alive = true → py.Expected heartbeat wallNs
  | .start _ => True
  | .others _ => True

end Watchdog

/-! ## Which heartbeats are read -/

namespace Interpreter

variable {py : Interpreter F}

theorem readText_error {file : FileState} {e : ReadError} (h : readText file = .error e) :
    tolerated e = true := by
  cases file with
  | missing =>
      obtain rfl := Except.error.inj h
      rfl
  | unreadable =>
      obtain rfl := Except.error.inj h
      rfl
  | bytes content =>
      rw [readText] at h
      split at h
      · obtain rfl := Except.error.inj h
        rfl
      · cases h

theorem toInt_error_iff (value : Json F) :
    (∀ e, py.toInt value = .error e → tolerated e = true) ↔ py.Stamps value := by
  cases value with
  | null => simp [toInt, Stamps, tolerated]
  | bool b => simp [toInt, Stamps]
  | int n => simp [toInt, Stamps]
  | float x =>
      simp only [toInt, Stamps]
      cases py.ops.value x <;> simp [tolerated]
  | str s =>
      simp only [toInt, Stamps]
      cases py.intOfText s <;> simp [tolerated]
  | arr elements => simp [toInt, Stamps, tolerated]
  | obj members => simp [toInt, Stamps, tolerated]

theorem age_error_iff (value : Json F) (wallNs : ℤ) :
    (∀ e, (do
      let stamp ← py.toInt value
      if floatLimit ≤ |wallNs - stamp| then .error .overflowError
      else .ok (((wallNs - stamp : ℤ) : Dec) / 1000000000)) = Except.error e → tolerated e = true) ↔
    py.Stamps value ∧ ∀ n, py.toInt value = .ok n → |wallNs - n| < floatLimit := by
  rw [← toInt_error_iff]
  cases py.toInt value with
  | error e => simp [bind, Except.bind]
  | ok n =>
      simp only [bind, Except.bind, reduceCtorEq, IsEmpty.forall_iff, implies_true, true_and,
        Except.ok.injEq, forall_eq']
      split_ifs with hfar
      · simp [tolerated, not_lt.2 hfar]
      · simp [not_le.1 hfar]

theorem ageOf_error_iff (file : FileState) (wallNs : ℤ) :
    (∀ e, py.ageOf file wallNs = .error e → tolerated e = true) ↔ py.Expected file wallNs := by
  rw [ageOf, stampOf, Expected]
  cases htext : readText file with
  | error e =>
      simp only [bind, Except.bind, Except.error.injEq, forall_eq', reduceCtorEq,
        IsEmpty.forall_iff, implies_true, iff_true]
      exact readText_error htext
  | ok text =>
      simp only [Except.ok.injEq, forall_eq']
      by_cases hdeep : py.tooDeep text = true
      · simp [bind, Except.bind, loads, hdeep, tolerated]
      · rw [Bool.not_eq_true] at hdeep
        cases hj : Json.loads py.ops text with
        | none =>
            by_cases hlong : py.tooLong text = true
            · simp [bind, Except.bind, loads, hdeep, hlong, tolerated]
            · simp [bind, Except.bind, loads, hdeep, hlong, hj, tolerated]
        | some j =>
            have hmet := py.tooLong_iff text j hj
            by_cases hlong : anyLong j = true
            · simp [bind, Except.bind, loads, hdeep, hmet.mpr hlong, hlong, tolerated]
            · rw [Bool.not_eq_true] at hlong
              have hloads : py.loads text = .ok j := by simp [loads, hdeep, hj, hmet, hlong]
              cases j with
              | obj members =>
                  cases hvalue : member? members (Text.ofString "ts_ns") with
                  | none => simp [bind, Except.bind, hloads, hdeep, hlong, hvalue, tolerated]
                  | some value =>
                      have hiff := py.age_error_iff value wallNs
                      simpa [bind, Except.bind, hloads, hdeep, hlong, hvalue] using hiff
              | _ => simp [bind, Except.bind, hloads, hdeep, hlong, tolerated]

theorem heartbeatAge_ok_iff (file : FileState) (wallNs : ℤ) :
    (∃ age, py.heartbeatAge file wallNs = .ok age) ↔ py.Expected file wallNs := by
  rw [← ageOf_error_iff, heartbeatAge]
  by_cases hmissing : file = .missing
  · subst hmissing
    simp [ageOf, stampOf, readText, bind, Except.bind, tolerated]
  · rw [if_neg hmissing]
    cases py.ageOf file wallNs with
    | error e => by_cases htolerated : tolerated e = true <;> simp [htolerated]
    | ok age => by_cases hbehind : age < -clockToleranceSec <;> simp [hbehind]

theorem isStale_iff {args : WatchdogArgs} {file : FileState} {wallNs : ℤ} {age : Option Age}
    (h : py.heartbeatAge file wallNs = .ok age) :
    isStale args.timeoutSec age = true ↔ ¬Watchdog.Fresh py args file wallNs := by
  rw [heartbeatAge] at h
  rw [Watchdog.Fresh]
  by_cases hmissing : file = .missing
  · subst hmissing
    obtain rfl := Except.ok.inj h
    simp [isStale, ageOf, stampOf, readText, bind, Except.bind]
  · rw [if_neg hmissing] at h
    cases hage : py.ageOf file wallNs with
    | error e =>
        rw [hage] at h
        by_cases htolerated : tolerated e = true
        · simp only [htolerated, if_true] at h
          obtain rfl := Except.ok.inj h
          simp [isStale]
        · simp only [htolerated] at h
          cases h
    | ok q =>
        rw [hage] at h
        by_cases hbehind : q < -clockToleranceSec
        · simp only [hbehind, if_true] at h
          obtain rfl := Except.ok.inj h
          simp [isStale, not_le.2 hbehind]
        · simp only [hbehind, if_false] at h
          obtain rfl := Except.ok.inj h
          rw [isStale, decide_eq_true_iff]
          constructor
          · rintro hlt ⟨age, hq, -, hle⟩
            obtain rfl := Except.ok.inj hq
            exact absurd hle (not_le.2 hlt)
          · intro hstale
            by_contra hle
            exact hstale ⟨q, rfl, not_lt.1 hbehind, not_lt.1 hle⟩

end Interpreter

/-! ## One iteration and whole runs -/

namespace Watchdog

variable {py : Interpreter F} {args : WatchdogArgs}

variable (w : Watchdog)

theorem iterate_spec {heartbeat : FileState} {wallNs : ℤ} (monoSec : Dec)
    (written : List UInt8) {age : Option Interpreter.Age}
    (hage : py.heartbeatAge heartbeat wallNs = .ok age) :
    ∃ after, py.iterate args w heartbeat wallNs monoSec written = .ok after ∧
      (w.kill ≠ .missing → after.kill ≠ .missing) ∧
      (Interpreter.isStale args.timeoutSec age = true →
        Interpreter.inGrace args w monoSec = false → after.kill ≠ .missing) := by
  simp only [Interpreter.iterate, hage, bind, Except.bind]
  by_cases hstale : Interpreter.isStale args.timeoutSec age = true
  · by_cases hgrace : Interpreter.inGrace args w monoSec = true
    · simp only [hstale, hgrace, Bool.and_self, if_true]
      refine ⟨w, rfl, fun h => h, ?_⟩
      simp
    · simp only [hstale, hgrace, Bool.and_false, Bool.true_and, Bool.false_eq_true, if_false]
      by_cases hact : (!w.tripped || !py.killEngaged w.kill) = true
      · simp only [hact, if_true]
        refine ⟨_, rfl, ?_, ?_⟩ <;> simp [Interpreter.engage]
      · -- the watchdog has tripped already, and the file is there
        have hkill : py.killEngaged w.kill = true := by
          rw [Bool.not_eq_true, Bool.or_eq_false_iff] at hact
          simpa using hact.2
        rw [py.killEngaged_iff] at hkill
        simp only [hact, Bool.not_true, Bool.false_and, Bool.false_eq_true, if_false]
        exact ⟨_, rfl, fun h => h, fun _ _ => hkill⟩
  · simp only [hstale, Bool.false_and, Bool.false_eq_true, if_false, Bool.not_false,
      Bool.true_and]
    split_ifs
    · exact ⟨_, rfl, fun h => h, fun h => absurd h (by simp)⟩
    · exact ⟨_, rfl, fun h => h, fun h => absurd h (by simp)⟩

theorem iterate_ok_iff (heartbeat : FileState) (wallNs : ℤ) (monoSec : Dec)
    (written : List UInt8) :
    (∃ after, py.iterate args w heartbeat wallNs monoSec written = .ok after) ↔
      py.Expected heartbeat wallNs := by
  rw [← Interpreter.heartbeatAge_ok_iff]
  constructor
  · rintro ⟨after, hafter⟩
    cases hage : py.heartbeatAge heartbeat wallNs with
    | error e =>
        rw [Interpreter.iterate, hage] at hafter
        cases hafter
    | ok age => exact ⟨age, rfl⟩
  · rintro ⟨age, hage⟩
    obtain ⟨after, hafter, -⟩ := iterate_spec w monoSec written hage
    exact ⟨after, hafter⟩

theorem kill_step {m : WatchdogMove} (hm : ∀ kill, m ≠ .others kill)
    (h : w.kill ≠ .missing) : (w.step py args m).kill ≠ .missing := by
  cases m with
  | start monoSec =>
      simp only [step]
      split <;> exact h
  | poll heartbeat wallNs monoSec written =>
      simp only [step]
      split_ifs
      · cases hage : py.heartbeatAge heartbeat wallNs with
        | error e =>
            rw [Interpreter.iterate, hage]
            exact h
        | ok age =>
            obtain ⟨after, hafter, hkeeps, -⟩ := iterate_spec w monoSec written hage
            rw [hafter]
            exact hkeeps h
      · exact h
  | others kill => exact absurd rfl (hm kill)

theorem kept_iff (m : WatchdogMove) : w.Kept py args m ↔ w.ReadsHeartbeat py m := by
  constructor
  · intro h
    cases m with
    | start monoSec => trivial
    | others kill => trivial
    | poll heartbeat wallNs monoSec written =>
        intro halive
        exact (iterate_ok_iff w heartbeat wallNs monoSec written).1
          (h.ends heartbeat wallNs monoSec written rfl halive)
  · intro h
    constructor
    · rintro heartbeat wallNs monoSec written rfl halive
      exact (iterate_ok_iff w heartbeat wallNs monoSec written).2 (h halive)
    · rintro heartbeat wallNs monoSec written rfl halive hstale hgrace
      obtain ⟨age, hage⟩ := (Interpreter.heartbeatAge_ok_iff heartbeat wallNs).2 (h halive)
      obtain ⟨after, hafter, -, hengaged⟩ := iterate_spec w monoSec written hage
      rw [py.killEngaged_iff, step, if_pos halive, hafter]
      exact hengaged ((Interpreter.isStale_iff hage).2 hstale) hgrace
    · intro hm hengaged
      rw [py.killEngaged_iff] at hengaged ⊢
      exact kill_step w hm hengaged

/-- In runs of any length: iterations come to their end, engage the kill switch
when the heartbeat is not fresh, and never release it, exactly when every
heartbeat they read is one the reader expects. -/
theorem watchdogKept_run_iff (py : Interpreter F) (args : WatchdogArgs) (w : Watchdog)
    (ms : List WatchdogMove) :
    Along (Watchdog.step py args) (Kept py args) w ms ↔
      Along (Watchdog.step py args) (ReadsHeartbeat py) w ms := by
  apply Along.iff_of_kept (I := fun _ => True)
  · exact fun _ _ _ _ => trivial
  · exact fun w m _ => w.kept_iff m
  · trivial

def plainInterpreter : Interpreter FloatText where
  ops := Audit.hexPython.toFloatOps
  intOfText _ := none
  strip text := text
  tooDeep _ := false
  tooLong text := (Json.loads Audit.hexPython.toFloatOps text).any Interpreter.anyLong
  tooLong_iff text j h := by rw [h, Option.any_some]

/-- A heartbeat whose time is written as `null`. -/
def nullStamp : FileState := .bytes (Utf8.encode "\x7b\"ts_ns\": null\x7d".toList)

/-- The heartbeat `{"ts_ns": null}` ends the process with the kill switch as it
was, long after the grace period. -/
theorem not_watchdogKept_nullStamp :
    ¬Along (Watchdog.step plainInterpreter ⟨180, .closeOnly, false⟩)
      (Kept plainInterpreter ⟨180, .closeOnly, false⟩) {} [.start 0, .poll nullStamp 0 200 []] := by
  intro h
  have hage : plainInterpreter.ageOf nullStamp 0 = .error .typeError := by decide +kernel
  have hengaged := h.2.1.engages nullStamp 0 200 [] rfl rfl ?_ (by decide +kernel)
  · exact absurd hengaged (by decide +kernel)
  · rintro ⟨age, hfresh, -⟩
    rw [hage] at hfresh
    cases hfresh

end Watchdog

end Sentinel

/-!
## Reading damaged files

What the reader of the kill file and the reader of the heartbeat do with any
content.  A kill file that is there is to read as engaged, and a heartbeat is to
read as stale unless it holds a recent stamp, and neither reader is to raise.
-/

namespace Sentinel

variable {F : Type}

namespace Interpreter

variable (py : Interpreter F) (args : WatchdogArgs) (file : FileState) (wallNs : ℤ)

def KillFailSafe : Prop :=
  file ≠ .missing → ∃ state, py.readKill file = .ok state ∧ state.engaged = true

def KillReadable : FileState → Prop
  | .missing => True
  | .unreadable => True
  | .bytes content =>
      ∃ cs, Utf8.decode content = some cs ∧
        (py.strip (Text.ofChars cs) = [] ∨
          py.tooDeep (py.strip (Text.ofChars cs)) = false ∧
            py.tooLong (py.strip (Text.ofChars cs)) = false ∧
            ∀ j, Json.loads py.ops (py.strip (Text.ofChars cs)) = some j →
              ∃ members, j = .obj members)

def RecentStamp : Prop :=
  ∃ text members value stamp,
    readText file = .ok text ∧ py.loads text = .ok (.obj members) ∧
      member? members (Text.ofString "ts_ns") = some value ∧ py.toInt value = .ok stamp ∧
      -clockToleranceSec ≤ ((wallNs - stamp : ℤ) : Dec) / 1000000000 ∧
      max 0 (((wallNs - stamp : ℤ) : Dec) / 1000000000) ≤ args.timeoutSec

def HeartbeatFailSafe : Prop :=
  ∃ age, py.heartbeatAge file wallNs = .ok age ∧
    (¬py.RecentStamp args file wallNs → isStale args.timeoutSec age = true)

theorem readKill_loads {content : List UInt8} {cs : List Char}
    (hdecode : Utf8.decode content = some cs) (hraw : py.strip (Text.ofChars cs) ≠ []) :
    (∃ state, py.readKill (.bytes content) = .ok state ∧ state.engaged = true) ↔
      ((∃ members, py.loads (py.strip (Text.ofChars cs)) = .ok (.obj members)) ∨
        py.loads (py.strip (Text.ofChars cs)) = .error .jsonDecodeError) := by
  simp only [readKill, readText, hdecode, bind, Except.bind, pure, Except.pure, if_neg hraw]
  rcases py.loads (py.strip (Text.ofChars cs)) with e | j
  · rcases e <;> simp
  · rcases j <;> simp

theorem killFailSafe_iff : py.KillFailSafe file ↔ py.KillReadable file := by
  rcases file with _ | _ | content
  · exact iff_of_true (fun h => absurd rfl h) trivial
  · exact iff_of_true (fun _ => ⟨_, rfl, rfl⟩) trivial
  · simp only [KillFailSafe, KillReadable, ne_eq, reduceCtorEq, not_false_eq_true, forall_const]
    rcases hdecode : Utf8.decode content with _ | cs
    · refine iff_of_false ?_ ?_
      · rintro ⟨state, hread, -⟩
        simp [readKill, readText, hdecode, bind, Except.bind] at hread
      · rintro ⟨cs, hcs, -⟩
        cases hcs
    · simp only [Option.some.injEq, exists_eq_left']
      by_cases hraw : py.strip (Text.ofChars cs) = []
      · refine iff_of_true ⟨⟨true, .str (Text.ofString "manual"), .null,
          .str (Text.ofString "file")⟩, ?_, rfl⟩ (.inl hraw)
        simp [readKill, readText, hdecode, hraw, bind, Except.bind, pure, Except.pure]
      · rw [py.readKill_loads hdecode hraw]
        simp only [hraw, false_or, loads]
        by_cases hdeep : py.tooDeep (py.strip (Text.ofChars cs)) = true
        · simp [hdeep]
        · by_cases hlong : py.tooLong (py.strip (Text.ofChars cs)) = true
          · simp [hdeep, hlong]
          · rcases Json.loads py.ops (py.strip (Text.ofChars cs)) with _ | j
            · simp [hdeep, hlong]
            · simp [hdeep, hlong]

theorem recentStamp_of_fresh {args : WatchdogArgs} {file : FileState} {wallNs : ℤ}
    (h : Watchdog.Fresh py args file wallNs) : py.RecentStamp args file wallNs := by
  obtain ⟨age, hage, hbehind, hlimit⟩ := h
  rcases hstamp : py.stampOf file with e | stamp
  · simp [ageOf, hstamp, bind, Except.bind] at hage
  · simp only [ageOf, hstamp, bind, Except.bind] at hage
    split_ifs at hage
    obtain rfl := Except.ok.inj hage
    rcases htext : readText file with e | text
    · simp [stampOf, htext, bind, Except.bind] at hstamp
    · rcases hloads : py.loads text with e | j
      · simp [stampOf, htext, hloads, bind, Except.bind] at hstamp
      · simp only [stampOf, htext, hloads, bind, Except.bind] at hstamp
        split at hstamp
        · rename_i members
          rcases hvalue : member? members (Text.ofString "ts_ns") with _ | value
          · simp [hvalue] at hstamp
          · rw [hvalue] at hstamp
            exact ⟨text, members, value, stamp, htext, hloads, hvalue, hstamp, hbehind, hlimit⟩
        · cases hstamp

theorem heartbeatFailSafe_iff :
    py.HeartbeatFailSafe args file wallNs ↔ py.Expected file wallNs := by
  rw [← heartbeatAge_ok_iff]
  constructor
  · rintro ⟨age, hage, -⟩
    exact ⟨age, hage⟩
  · rintro ⟨age, hage⟩
    exact ⟨age, hage, fun hstale =>
      (isStale_iff hage).mpr fun hfresh => hstale (py.recentStamp_of_fresh hfresh)⟩

/-- Both readers, for every content of their files. -/
theorem failSafe_iff (kill heartbeat : FileState) (wallNs : ℤ) :
    (py.KillFailSafe kill ↔ py.KillReadable kill) ∧
      (py.HeartbeatFailSafe args heartbeat wallNs ↔ py.Expected heartbeat wallNs) :=
  ⟨py.killFailSafe_iff kill, py.heartbeatFailSafe_iff args heartbeat wallNs⟩

/-- A kill file that holds a list stops its reader. -/
theorem listKill_raises : ¬Watchdog.plainInterpreter.KillFailSafe
    (.bytes (Utf8.encode "[]".toList)) := by
  intro h
  obtain ⟨state, hread, -⟩ := h (by decide)
  have hraises : Watchdog.plainInterpreter.readKill (.bytes (Utf8.encode "[]".toList)) =
      .error .attributeError := by
    rfl
  rw [hraises] at hread
  cases hread

end Interpreter

end Sentinel
