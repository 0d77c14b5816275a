import Sentinel.Core.Audit
import Sentinel.Support.DigitForms

/-!
# The bridge to the terminal

The server runs next to the terminal and answers one JSON request at a time.
Before an order reaches the terminal the envelope reads the account again, asks
for a size, a stop and a symbol of its own where the request opens a position,
and writes the request to a journal under its comment.

A value that the server decodes to a date and time is kept as the JSON object it
is written as.
-/

namespace Sentinel
namespace Bridge

variable {F : Type}

/-- The interpreter under the server: `float(str)`, `repr(str)`, whether
`datetime.fromisoformat` reads a value, the digest of a request (the SHA-256 of
`json.dumps(request, sort_keys=True, default=str)`), and the text of the error
for a `**` argument that is no mapping. -/
structure Host (F : Type) extends Python F where
  floatOfText : Text → Option F
  reprText : Text → Text
  isoStamp : Json F → Bool
  digest : Json F → Text
  mappingError : Json F → Text

def member? (members : List (Text × Json F)) (name : String) : Option (Json F) :=
  ((members.filter fun m => decide (m.1 = Text.ofString name)).getLast?).map Prod.snd

/-- `dict.get(name)`. -/
def memberD (members : List (Text × Json F)) (name : String) : Json F :=
  (member? members name).getD .null

/-- `{"__dt__": value}`, which is decoded to a date and time. -/
def stamp? : Json F → Option (Json F)
  | .obj [(name, value)] => if name = Text.ofString "__dt__" then some value else none
  | _ => none

def dict? (j : Json F) : Option (List (Text × Json F)) :=
  match j with
  | .obj members => if (stamp? j).isSome then none else some members
  | _ => none

namespace Host

variable (py : Host F)

mutual

/-- `_decode_args` comes to an end: every date and time in the value is read. -/
def decodes : Json F → Bool
  | .obj members =>
      match stamp? (.obj members) with
      | some value => py.isoStamp value
      | none => decodesMembers members
  | .arr elements => decodesElements elements
  | .null => true
  | .bool _ => true
  | .int _ => true
  | .float _ => true
  | .str _ => true

def decodesElements : List (Json F) → Bool
  | [] => true
  | j :: js => decodes j && decodesElements js

def decodesMembers : List (Text × Json F) → Bool
  | [] => true
  | (_, j) :: ms => decodes j && decodesMembers ms

end

inductive FloatError where
  | notNumber
  | overflow
  deriving DecidableEq

/-- `float(value)`; `notNumber` stands for a `TypeError` or a `ValueError`. -/
def toFloat : Json F → Except FloatError F
  | .bool b => ((py.ofInt? (if b then 1 else 0)).map .ok).getD (.error .overflow)
  | .int n => ((py.ofInt? n).map .ok).getD (.error .overflow)
  | .float x => .ok x
  | .str s => ((py.floatOfText s).map .ok).getD (.error .notNumber)
  | .null => .error .notNumber
  | .arr _ => .error .notNumber
  | .obj _ => .error .notNumber

end Host

/-! ## The terminal -/

/-- What `account_info` answers: the login and the server as texts, and the trade
mode where it is a number. -/
inductive AccountAnswer where
  | raises (text : Text)
  | signedOut
  | info (login server : Text) (mode : Option ℤ)
  deriving DecidableEq

inductive AccountType where
  | demo
  | live
  | unknown
  deriving DecidableEq

/-- `{0: "demo", 1: "demo", 2: "live"}`. -/
def accountTypeOf (mode : Option ℤ) : AccountType :=
  if mode = some 0 ∨ mode = some 1 then .demo
  else if mode = some 2 then .live
  else .unknown

inductive TerminalAnswer (F : Type) where
  | returns (encoded : Json F)
  | raises (text : Text)
  | unencodable (text : Text)

structure TerminalModule (F : Type) where
  actionDeal : ℤ
  has : Text → Bool
  constants : Json F

/-! ## The envelope -/

structure EnvelopeConfig (F : Type) where
  accountId : Option Text := none
  server : Option Text := none
  maxLots : F
  allowLive : Bool := false
  symbols : Option (List Text) := none

/-- An entry of the write journal; its outcome is missing until there is one, and
`null` where the terminal gave none. -/
structure JournalEntry (F : Type) where
  hash : Text
  outcome : Option (Json F) := none

structure Envelope (F : Type) where
  accountId : Option Text
  server : Option Text
  accountType : AccountType := .unknown
  journal : Dict Text (JournalEntry F) := Dict.empty

inductive Refusal (F : Type) where
  | accountUnreadable (text : Text)
  | notSignedIn
  | otherAccount (login bound : Text)
  | otherServer (server bound : Text)
  | noRequest
  | liveNotAllowed
  | accountTypeUnknown
  | volumeNotNumber
  | volumeOutside (lots : F)
  | noStop
  | symbolOutside (symbol : Text)
  | reused (key : Text)
  | outcomeUnknown (key : Text)

namespace Refusal

variable (py : Host F) (cfg : EnvelopeConfig F)

def words (s : String) : Text := Text.ofString s

def message : Refusal F → Text
  | accountUnreadable text => words "account unreadable; routing refused: " ++ text
  | notSignedIn => words "terminal is not signed in; routing refused"
  | otherAccount login bound =>
      words "terminal account " ++ py.reprText login ++ words " is not the bound account " ++
        py.reprText bound ++ words "; all routing refused"
  | otherServer server bound =>
      words "terminal server " ++ py.reprText server ++ words " is not the bound server " ++
        py.reprText bound ++ words "; all routing refused"
  | noRequest => words "order_send needs a request dict"
  | liveNotAllowed => words "live account: the bridge was started without --allow-live"
  | accountTypeUnknown => words "account type unknown; the bridge will not open a position"
  | volumeNotNumber => words "order volume is not a number"
  | volumeOutside lots =>
      words "volume " ++ Json.renderFloat (py.text lots) ++
        words " outside the bridge ceiling of " ++ Json.renderFloat (py.text cfg.maxLots) ++
        words " lots"
  | noStop => words "a new position without a stop-loss is refused by the bridge"
  | symbolOutside symbol => py.reprText symbol ++ words " is outside the bridge's symbol envelope"
  | reused key =>
      words "order id " ++ py.reprText key ++ words " reused with a different request"
  | outcomeUnknown key =>
      words "order id " ++ py.reprText key ++
        words " was sent before and its outcome is unknown; " ++
        words "do not resend -- reconcile against the terminal's deals"

end Refusal

inductive OrderCheck (F : Type) where
  | refuse (r : Refusal F)
  | replay (outcome : Json F)
  | forward (key : Option Text)
  | raises

namespace Envelope

variable (py : Host F) (cfg : EnvelopeConfig F) (module : TerminalModule F)

/-- `BridgeEnvelope(...)` on a journal file. -/
def start (journal : Dict Text (JournalEntry F)) : Envelope F where
  accountId := cfg.accountId
  server := cfg.server
  journal := journal

def unboundMethods : List Text :=
  ["initialize", "shutdown", "last_error", "version", "terminal_info"].map Text.ofString

variable (e : Envelope F)

def checkAccount (method : Text) (answer : AccountAnswer) : Option (Refusal F) × Envelope F :=
  if method ∈ unboundMethods then (none, e)
  else
    match answer with
    | .raises text => (some (.accountUnreadable text), e)
    | .signedOut => (some .notSignedIn, e)
    | .info login server mode =>
        let read := { e with accountType := accountTypeOf mode }
        match e.accountId with
        | none => (none, { read with accountId := some login, server := some server })
        | some bound =>
            if login ≠ bound then (some (.otherAccount login bound), read)
            else if e.server.getD [] ≠ [] ∧ server ≠ [] ∧ server ≠ e.server.getD [] then
              (some (.otherServer server (e.server.getD [])), read)
            else (none, read)

/-- `args[0] if args else kwargs.get("request")`; nothing where that raises. -/
def requestOf (args kwargs : Json F) : Option (Json F) :=
  if Audit.truthy py.toPython args then
    match args with
    | .arr (request :: _) => some request
    | .str (c :: _) => some (.str [c])
    | _ => none
  else (dict? kwargs).map fun ms => memberD ms "request"

variable (request : List (Text × Json F))

def opensPosition : Bool :=
  Audit.equalsInt py.toPython (memberD request "action") module.actionDeal &&
    (member? request "position").isNone

/-- The part of `check_order` for a new position: nothing where it passes. -/
def openingCheck (accountType : AccountType) (request : List (Text × Json F)) :
    Option (OrderCheck F) :=
  if accountType = .live ∧ cfg.allowLive = false then some (.refuse .liveNotAllowed)
  else if accountType = .unknown then some (.refuse .accountTypeUnknown)
  else
    match py.toFloat ((member? request "volume").getD (.int 0)) with
    | .error .overflow => some .raises
    | .error .notNumber => some (.refuse .volumeNotNumber)
    | .ok lots =>
        let symbol := py.strOf ((member? request "symbol").getD (.str []))
        if (py.value lots).le (.finite 0) || (py.value cfg.maxLots).lt (py.value lots) then
          some (.refuse (.volumeOutside lots))
        else if Audit.truthy py.toPython (memberD request "sl") = false then
          some (.refuse .noStop)
        else if ∃ symbols, cfg.symbols = some symbols ∧ symbol ∉ symbols then
          some (.refuse (.symbolOutside symbol))
        else none

/-- `str(request.get("comment") or "")`. -/
def keyOf : Text :=
  let comment := memberD request "comment"
  if Audit.truthy py.toPython comment then py.strOf comment else []

/-- The rest of `check_order`: the journal. -/
def journalCheck : OrderCheck F × Envelope F :=
  let key := keyOf py request
  let hash := py.digest (.obj request)
  if key = [] then (.forward none, e)
  else
    match e.journal.get? key with
    | some prior =>
        if prior.hash ≠ hash then (.refuse (.reused key), e)
        else
          match prior.outcome with
          | none => (.refuse (.outcomeUnknown key), e)
          | some .null => (.refuse (.outcomeUnknown key), e)
          | some outcome => (.replay outcome, e)
    | none => (.forward (some key), { e with journal := e.journal.set key { hash } })

def checkOrder (args kwargs : Json F) : OrderCheck F × Envelope F :=
  match requestOf py args kwargs with
  | none => (.raises, e)
  | some value =>
      match dict? value with
      | none => (.refuse .noRequest, e)
      | some request =>
          match (if opensPosition py module request then
              openingCheck py cfg e.accountType request else none) with
          | some check => (check, e)
          | none => journalCheck py e request

def recordOutcome (key : Text) (outcome : Json F) : Envelope F :=
  { e with journal := e.journal.adjust key fun entry => { entry with outcome := some outcome } }

end Envelope

/-! ## The server -/

inductive Reply (F : Type) where
  | ok (result : Json F) (replayed : Bool)
  | error (text : Text)

/-- What a request comes to before the terminal's method is called: a reply, an
error that ends the connection, or the call, with the key that the journal holds
for it.  A call whose keyword arguments are no mapping fails by itself. -/
inductive Admission (F : Type) where
  | reply (r : Reply F)
  | raises
  | call (method : Text) (args kwargs : Json F) (key : Option Text)
  | miscall (kwargs : Json F) (key : Option Text)

def allowedMethods : List Text :=
  ["initialize", "shutdown", "last_error", "terminal_info", "account_info", "symbols_get",
    "symbol_info", "symbol_info_tick", "symbol_select", "copy_rates_from_pos",
    "copy_ticks_range", "positions_get", "orders_get", "history_deals_get", "order_send",
    "version"].map Text.ofString

def orderSend : Text := Text.ofString "order_send"

structure ServerConfig (F : Type) where
  token : Text
  envelope : EnvelopeConfig F
  module : TerminalModule F

namespace Server

variable (py : Host F) (cfg : ServerConfig F)

/-- `value or fallback`. -/
def orElse (value fallback : Json F) : Json F :=
  if Audit.truthy py.toPython value then value else fallback

/-- `compare_digest` raises on a text that is not ASCII. -/
def isAscii (s : Text) : Bool := s.all fun p => decide (p.code < 128)

def calling (method : Text) (args kwargs : Json F) (key : Option Text) : Admission F :=
  if (dict? kwargs).isSome then .call method args kwargs key else .miscall kwargs key

variable (e : Envelope F) (account : AccountAnswer)

/-- `_handle` under its lock, as far as the call of the terminal. -/
def route (method : Text) (args kwargs : Json F) : Admission F × Envelope F :=
  match e.checkAccount method account with
  | (some r, e) => (.reply (.error (r.message py cfg.envelope)), e)
  | (none, e) =>
      if method = orderSend then
        match e.checkOrder py cfg.envelope cfg.module args kwargs with
        | (.refuse r, e) => (.reply (.error (r.message py cfg.envelope)), e)
        | (.replay outcome, e) => (.reply (.ok outcome true), e)
        | (.raises, e) => (.raises, e)
        | (.forward key, e) => (calling method args kwargs key, e)
      else (calling method args kwargs none, e)

inductive Parsed (F : Type) where
  | answered (r : Option (Reply F))
  | method (name : Text) (args kwargs : Json F)

/-- `_handle` up to its lock. -/
def parse (req : Json F) : Parsed F :=
  match req with
  | .obj members =>
      let token := py.strOf ((member? members "token").getD (.str []))
      let method := py.strOf ((member? members "method").getD (.str []))
      let args := orElse py (memberD members "args") (.arr [])
      let kwargs := orElse py (memberD members "kwargs") (.obj [])
      if isAscii token && isAscii cfg.token then
        if token ≠ cfg.token then .answered (some (.error (Refusal.words "unauthorised")))
        else if method = Text.ofString "constants" then
          .answered (some (.ok cfg.module.constants false))
        else if method ∉ allowedMethods then
          .answered (some (.error (Refusal.words "method " ++ py.reprText method ++
            Refusal.words " is not bridged")))
        else if cfg.module.has method = false then
          .answered (some (.error (Refusal.words "terminal module has no " ++
            py.reprText method)))
        else if py.decodes args && py.decodes kwargs then .method method args kwargs
        else .answered none
      else .answered none
  | _ => .answered none

/-- `_handle` as far as the call of the terminal. -/
def screen (req : Json F) : Admission F × Envelope F :=
  match parse py cfg req with
  | .answered none => (.raises, e)
  | .answered (some r) => (.reply r, e)
  | .method name args kwargs => route py cfg e account name args kwargs

def record (key : Option Text) (outcome : Json F) : Envelope F :=
  match key with
  | none => e
  | some key => e.recordOutcome key outcome

/-- `_handle` after the call of the terminal. -/
def finish (key : Option Text) (answer : TerminalAnswer F) : Reply F × Envelope F :=
  match answer with
  | .returns encoded => (.ok encoded false, record e key encoded)
  | .raises text => (.error text, record e key .null)
  | .unencodable text =>
      (.error (Refusal.words "unencodable result: " ++ text), record e key .null)

/-- `_handle`; no reply where the connection ends. -/
def handle (answer : TerminalAnswer F) (req : Json F) : Option (Reply F) × Envelope F :=
  match screen py cfg e account req with
  | (.reply r, e) => (some r, e)
  | (.raises, e) => (none, e)
  | (.call _ _ _ key, e) =>
      let (r, e) := finish e key answer
      (some r, e)
  | (.miscall kwargs key, e) =>
      let (r, e) := finish e key (.raises (py.mappingError kwargs))
      (some r, e)

/-- The request that is passed to the terminal's `order_send`, if it is called. -/
def sends (e : Envelope F) (account : AccountAnswer) (req : Json F) : Option (Json F) :=
  match screen py cfg e account req with
  | (.call method args kwargs _, _) =>
      if method = orderSend then Envelope.requestOf py args kwargs else none
  | _ => none

end Server

/-! ## The client -/

/-- The members of the line that `order_send` sends. -/
def orderMembers (token : Text) (seq : ℤ) (request : List (Text × Json F)) :
    List (Text × Json F) :=
  [(Text.ofString "id", .int seq), (Text.ofString "token", .str token),
    (Text.ofString "method", .str orderSend), (Text.ofString "args", .arr [.obj request]),
    (Text.ofString "kwargs", .obj [])]

def orderLine (token : Text) (seq : ℤ) (request : List (Text × Json F)) : Json F :=
  .obj (orderMembers token seq request)

def refusalMarkers : List Text :=
  ["routing refused", "ceiling", "refused by the bridge", "allow-live", "envelope",
    "reused with a different request", "outcome is unknown", "account type unknown",
    "not signed in", "not bridged", "needs a request"].map Text.ofString

def looksLikeRefusal (text : Text) : Bool := refusalMarkers.any fun marker => marker <:+: text

/-- How a call of the client ends: with a result, with `BridgeRefused`, or with
another `BridgeError`. -/
inductive CallEnd (F : Type) where
  | result (r : Json F)
  | refused (text : Text)
  | failed (text : Text)

/-- `_call` on a reply. -/
def endOf : Reply F → CallEnd F
  | .ok r _ => .result r
  | .error text =>
      if text = Refusal.words "unauthorised" then
        .failed (Refusal.words "mt5 bridge rejected the token")
      else if looksLikeRefusal text then .refused text
      else .failed text

end Bridge
end Sentinel
