import Sentinel.Support.PyJson
import Sentinel.Support.Utf8

/-!
# The tamper-evident audit journal

One JSON object per line, each carrying the hash of the one before.  The file
is its bytes; the clock readings, the run id and the file's name are arguments.
Line ends are those of a POSIX system.
-/

namespace Sentinel

abbrev Bytes := List UInt8

inductive PyError where
  | typeError
  | keyError (key : Text)
  | attributeError
  | valueError
  | overflowError
  | unicodeDecodeError
  | unicodeEncodeError
  | auditChainDamaged
  deriving DecidableEq

/-- The interpreter under the journal: its floating-point numbers, the
hexadecimal SHA-256 digest, and `int` and `str`. -/
structure Python (F : Type) extends FloatOps F where
  sha256 : Bytes → List Char
  intOf : Json F → Except PyError ℤ
  strOf : Json F → Text
  intOf_int : ∀ n, intOf (.int n) = .ok n
  strOf_str : ∀ s, strOf (.str s) = s

/-- An entry handed to `append`, with what the interpreter adds to it. -/
structure Entry (F : Type) where
  event : Text
  actor : Text
  payload : PyVal F
  tsNs : ℤ
  runId : Text

structure AuditRecord (F : Type) where
  seq : ℤ
  tsNs : ℤ
  runId : Text
  event : Text
  actor : Text
  payload : PyVal F
  prevHash : Text
  hash : Text

/-- The open journal. -/
structure AuditLog where
  file : Bytes
  seq : ℤ
  lastHash : Text
  sidecars : List (Text × Bytes)
  deriving DecidableEq

namespace Audit

open Chars

def genesis : Text := Text.ofChars (List.replicate 64 '0')

def systemStart : Text := Text.ofString "system.start"

variable {F : Type} (py : Python F)

def key (name : String) : PyKey F := .str (Text.ofString name)

/-- `str.encode("utf-8")`. -/
def encode : Text → Except PyError Bytes
  | [] => .ok []
  | .surrogate _ :: _ => .error .unicodeEncodeError
  | .scalar c :: rest => do
      let bytes ← encode rest
      pure (String.utf8EncodeChar c ++ bytes)

def dumps (sortKeys : Bool) (v : PyVal F) : Except PyError Text :=
  match v.image py.toFloatOps sortKeys with
  | some j => .ok (j.render py.toFloatOps)
  | none => .error .typeError

def digestInput (seq tsNs runId event actor payload prevHash : PyVal F) : PyVal F :=
  .dict [(key "seq", seq), (key "ts_ns", tsNs), (key "run_id", runId), (key "event", event),
    (key "actor", actor), (key "payload", payload), (key "prev_hash", prevHash)]

def digestBytes (input : PyVal F) : Except PyError Bytes := do
  let body ← dumps py true input
  encode body

def digest (input : PyVal F) : Except PyError Text := do
  let bytes ← digestBytes py input
  pure (Text.ofChars (py.sha256 bytes))

def toDict (r : AuditRecord F) : PyVal F :=
  .dict [(key "seq", .int r.seq), (key "ts_ns", .int r.tsNs), (key "run_id", .str r.runId),
    (key "event", .str r.event), (key "actor", .str r.actor), (key "payload", r.payload),
    (key "prev_hash", .str r.prevHash), (key "hash", .str r.hash)]

/-! ## Writing -/

def entryInput (seq : ℤ) (prev : Text) (e : Entry F) : PyVal F :=
  digestInput (.int seq) (.int e.tsNs) (.str e.runId) (.str e.event) (.str e.actor) e.payload
    (.str prev)

def record (seq : ℤ) (prev : Text) (e : Entry F) : Except PyError (AuditRecord F) := do
  let hash ← digest py (entryInput seq prev e)
  pure ⟨seq, e.tsNs, e.runId, e.event, e.actor, e.payload, prev, hash⟩

def lineBytes (r : AuditRecord F) : Except PyError Bytes := do
  let line ← dumps py false (toDict r)
  encode (line ++ [.scalar '\n'])

def append (log : AuditLog) (e : Entry F) : Except PyError (AuditLog × AuditRecord F) := do
  let r ← record py (log.seq + 1) log.lastHash e
  let bytes ← lineBytes py r
  pure ({ log with file := log.file ++ bytes, seq := r.seq, lastHash := r.hash }, r)

/-- A sequence of calls of `append`, and the records they return: a call that
raises leaves the journal as it was. -/
def appendAll (log : AuditLog) : List (Entry F) → AuditLog × List (AuditRecord F)
  | [] => (log, [])
  | e :: entries =>
      match append py log e with
      | .ok (log', r) => ((appendAll log' entries).1, r :: (appendAll log' entries).2)
      | .error _ => appendAll log entries

/-- The journal of a file that is not there yet. -/
def fresh : AuditLog := ⟨[], 0, genesis, []⟩

/-! ## Lines of a text file -/

def universalNewlines : List Char → List Char
  | '\r' :: '\n' :: cs => '\n' :: universalNewlines cs
  | '\r' :: cs => '\n' :: universalNewlines cs
  | c :: cs => c :: universalNewlines cs
  | [] => []

def linesOf : List Char → List (List Char)
  | [] => []
  | c :: cs =>
      if c = '\n' then [c] :: linesOf cs
      else
        match linesOf cs with
        | [] => [[c]]
        | line :: lines => (c :: line) :: lines

/-- `bytes.strip()` leaves nothing. -/
def isBlank (bytes : Bytes) : Bool := bytes.all fun b => (9 ≤ b && b ≤ 13) || b = 32

/-! ## Recovery -/

/-- `rec[name]`. -/
def item (r : Json F) (name : String) : Except PyError (Json F) :=
  match r with
  | .obj members =>
      match members.lookup (Text.ofString name) with
      | some v => .ok v
      | none => .error (.keyError (Text.ofString name))
  | _ => .error .typeError

def tailOf (line : Text) : Except PyError (ℤ × Text) :=
  match Json.loads py.toFloatOps line with
  | none => .error .valueError
  | some r => do
      let seq ← item r "seq" >>= py.intOf
      let hash ← item r "hash"
      pure (seq, py.strOf hash)

structure Recovered where
  file : Bytes
  seq : ℤ
  hash : Text
  torn : Option (Text × Bytes)
  deriving DecidableEq

variable (journalName : Text) (wallNs : ℤ)

def sidecarName : Text :=
  journalName ++ Text.ofString ".torn." ++ Json.renderInt wallNs

def truncateTornTail (raw : Bytes) : Except PyError Recovered :=
  match (raw.splitOn 10).reverse.dropWhile isBlank with
  | [] => .ok ⟨raw, 0, genesis, none⟩
  | torn :: rest =>
      let kept (file : Bytes) (found : ℤ × Text) : Recovered :=
        ⟨file, found.1, found.2, some (sidecarName journalName wallNs, torn)⟩
      match rest with
      | [] => .ok (kept [] (0, genesis))
      | last :: _ =>
          let found : Except PyError (ℤ × Text) :=
            match Utf8.decode last with
            | some line => tailOf py (Text.ofChars line)
            | none => .error .unicodeDecodeError
          match found with
          | .ok found => .ok (kept (List.intercalate [10] rest.reverse ++ [10]) found)
          | .error .valueError | .error (.keyError _) | .error .unicodeDecodeError =>
              .error .auditChainDamaged
          | .error e => .error e

def lastLine (text : List Char) : Option (List Char) :=
  ((linesOf (universalNewlines text)).filter fun line => strip line ≠ []).getLast?

def recoverTail (file : Bytes) : Except PyError Recovered :=
  if file = [] then .ok ⟨file, 0, genesis, none⟩
  else
    match Utf8.decode file with
    | none => .error .unicodeDecodeError
    | some text =>
        match lastLine text with
        | none => .ok ⟨file, 0, genesis, none⟩
        | some line =>
            match tailOf py (Text.ofChars line) with
            | .ok (seq, hash) => .ok ⟨file, seq, hash, none⟩
            | .error .valueError | .error (.keyError _) =>
                truncateTornTail py journalName wallNs file
            | .error e => .error e

def repairEntry (seq : ℤ) (hash sidecar : Text) (tsNs : ℤ) (runId : Text) : Entry F where
  event := systemStart
  actor := Text.ofString "audit"
  payload := .dict [(key "chain_repaired", .bool true), (key "resumed_from_seq", .int seq),
    (key "resumed_from_hash", .str hash), (key "torn_bytes_saved_to", .str sidecar),
    (key "note", .str (Text.ofString <|
      "a torn final line was dropped after an unclean shutdown; " ++
      "the chain before it is intact and continues here"))]
  tsNs := tsNs
  runId := runId

structure Start where
  journalName : List Char
  wallNs : ℤ
  tsNs : ℤ
  runId : List Char

def openLog (start : Start) (file : Bytes) : Except PyError AuditLog := do
  let found ← recoverTail py (Text.ofChars start.journalName) start.wallNs file
  let log : AuditLog := ⟨found.file, found.seq, found.hash, found.torn.toList⟩
  match found.torn with
  | none => pure log
  | some (sidecar, _) => do
      let (log, _) ← append py log (repairEntry found.seq found.hash sidecar start.tsNs
        (Text.ofChars start.runId))
      pure log

/-! ## Reading -/

def sentinelLine (lineno : ℕ) : Json F :=
  .obj [(Text.ofString "__unparseable__", .bool true), (Text.ofString "__line__", .int lineno)]

def iterRecords (file : Bytes) : List (Json F) :=
  ((linesOf (universalNewlines (Utf8.decodeReplace file))).zipIdx 1).filterMap
    fun (line, lineno) =>
      if strip line = [] then none
      else some ((Json.loads py.toFloatOps (Text.ofChars (strip line))).getD
        (sentinelLine lineno))

/-- What `verify` finds. -/
inductive Verdict (F : Type) where
  | intact (records : ℤ)
  | unparseable (line : Json F)
  | missingField
  | sequenceGap (expected : ℤ) (saw : Json F)
  | linkMismatch (seq : Json F)
  | hashMismatch (seq : Json F)

namespace Verdict

def isOk : Verdict F → Bool
  | intact _ => true
  | _ => false

def firstBad : Verdict F → Option (Json F)
  | sequenceGap _ seq | linkMismatch seq | hashMismatch seq => some seq
  | _ => none

def message : Verdict F → Text
  | intact records =>
      Text.ofString "chain intact (" ++ Json.renderInt records ++ Text.ofString " records)"
  | unparseable line =>
      Text.ofString "line " ++ py.strOf line ++
        Text.ofString " is not valid JSON: the journal has been edited or truncated"
  | missingField => Text.ofString "a record is missing its sequence or hash"
  | sequenceGap expected saw =>
      Text.ofString "sequence gap: expected " ++ Json.renderInt expected ++
        Text.ofString ", saw " ++ py.strOf saw
  | linkMismatch _ =>
      Text.ofString "previous-hash mismatch (a record was altered or removed)"
  | hashMismatch _ => Text.ofString "record hash mismatch (payload was altered)"

end Verdict

def truthy : Json F → Bool
  | .null => false
  | .bool b => b
  | .int n => n ≠ 0
  | .float x => py.value x ≠ .finite 0
  | .str s => s ≠ []
  | .arr elements => !elements.isEmpty
  | .obj members => !members.isEmpty

/-- `value == n`: booleans and floating-point numbers compare by value. -/
def equalsInt (v : Json F) (n : ℤ) : Bool :=
  match v with
  | .bool b => (if b then 1 else 0) = n
  | .int m => m = n
  | .float x => py.value x = .finite n
  | _ => false

def equalsText (v : Json F) (s : Text) : Bool :=
  match v with
  | .str t => t = s
  | _ => false

def recordInput (r : Json F) : Except PyError (PyVal F) := do
  let seq ← item r "seq"
  let tsNs ← item r "ts_ns"
  let runId ← item r "run_id"
  let event ← item r "event"
  let actor ← item r "actor"
  let payload ← item r "payload"
  let prevHash ← item r "prev_hash"
  pure (digestInput (.ofJson seq) (.ofJson tsNs) (.ofJson runId) (.ofJson event)
    (.ofJson actor) (.ofJson payload) (.ofJson prevHash))

def checkRecord (expected : ℤ) (prev : Text) (r : Json F) :
    Except PyError (Verdict F ⊕ Text) :=
  match r with
  | .obj members => do
      if truthy py ((members.lookup (Text.ofString "__unparseable__")).getD .null) then
        let line ← item r "__line__"
        return .inl (.unparseable line)
      match members.lookup (Text.ofString "seq"), members.lookup (Text.ofString "hash") with
      | some seq, some hash =>
          if !equalsInt py seq expected then
            return .inl (.sequenceGap expected seq)
          let prevHash ← item r "prev_hash"
          if !equalsText prevHash prev then
            return .inl (.linkMismatch seq)
          let input ← recordInput r
          let h ← digest py input
          if !equalsText hash h then
            return .inl (.hashMismatch seq)
          return .inr h
      | _, _ => return .inl .missingField
  | _ => .error .attributeError

def verifyFrom : ℤ → Text → List (Json F) → Except PyError (Verdict F)
  | expected, _, [] => .ok (.intact (expected - 1))
  | expected, prev, r :: records => do
      match ← checkRecord py expected prev r with
      | .inl verdict => pure verdict
      | .inr hash => verifyFrom (expected + 1) hash records

def verify (file : Bytes) : Except PyError (Verdict F) :=
  verifyFrom py 1 genesis (iterRecords py file)

end Audit
end Sentinel
