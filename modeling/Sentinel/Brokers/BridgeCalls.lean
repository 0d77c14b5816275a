import Sentinel.Brokers.BridgeEnvelope

/-!
# Calls of the client over a connection that fails

The client sends a call, and sends it once more when the connection fails.  What
it has sent may be handled at any later time, or never; the server may crash in
the middle and start again on its journal.  A call that ends in `BridgeRefused`
is reported as a rejection, and nobody looks for its order again.
-/

namespace Sentinel
namespace Bridge

variable {F : Type}

/-! ## The two ends of the connection -/

structure Transmission where
  call : ℕ
  attempt : ℕ
  deriving DecidableEq

/-- A call of the terminal's `order_send`, and whether it executed an order. -/
structure TerminalCall where
  call : ℕ
  executed : Bool
  deriving DecidableEq

inductive CrashPoint where
  | admitted
  | called
  | recorded
  deriving DecidableEq

/-- The two ends: what the server holds, the request of every call so far, what
is on its way, the call the client waits for, what the terminal was called for,
and how calls ended. -/
structure Link (F : Type) where
  envelope : Envelope F
  requests : List (List (Text × Json F)) := []
  inFlight : List Transmission := []
  waiting : Option Transmission := none
  terminal : List TerminalCall := []
  ends : List (ℕ × CallEnd F) := []

structure Handling (F : Type) where
  account : AccountAnswer
  answer : TerminalAnswer F
  executes : Bool
  crash : Option CrashPoint := none
  arrives : Bool := true

/-- A call of the client, a connection that fails under it, a line that is lost,
a line that is handled, a request of another method, or a restart. -/
inductive LinkMove (F : Type) where
  | order (request : List (Text × Json F))
  | lose
  | drop (t : Transmission)
  | handle (t : Transmission) (h : Handling F)
  | other (method : Text) (account : AccountAnswer)
  | restart

/-- A server the client has the token of, next to a terminal that trades. -/
structure LinkConfig (F : Type) where
  server : ServerConfig F
  token_ascii : Server.isAscii server.token = true
  has_orderSend : server.module.has orderSend = true

/-- What handling a line comes to. -/
structure Served (F : Type) where
  envelope : Envelope F
  reply : Option (Reply F)
  calls : Bool

namespace Link

variable (py : Host F) (cfg : LinkConfig F) (s : Link F)

def request (call : ℕ) : List (Text × Json F) := s.requests.getD call []

def line (s : Link F) (t : Transmission) : Json F :=
  orderLine cfg.server.token t.call (s.request t.call)

def serve (t : Transmission) (h : Handling F) : Served F :=
  let restarted (e : Envelope F) := Envelope.start cfg.server.envelope e.journal
  let admitted := (Server.screen py cfg.server s.envelope h.account (s.line cfg t)).2
  let handled := Server.handle py cfg.server s.envelope h.account h.answer (s.line cfg t)
  let calls := (Server.sends py cfg.server s.envelope h.account (s.line cfg t)).isSome
  match h.crash with
  | none => ⟨handled.2, handled.1, calls⟩
  | some .admitted => ⟨restarted admitted, none, false⟩
  | some .called => ⟨restarted admitted, none, calls⟩
  | some .recorded => ⟨restarted handled.2, none, calls⟩

def called? : LinkMove F → Option TerminalCall
  | .handle t h =>
      if t ∈ s.inFlight ∧ (s.serve py cfg t h).calls = true then some ⟨t.call, h.executes⟩ else none
  | _ => none

def ended? : LinkMove F → Option (ℕ × CallEnd F)
  | .handle t h =>
      if t ∈ s.inFlight ∧ s.waiting = some t ∧ h.arrives = true then
        (s.serve py cfg t h).reply.map fun r => (t.call, endOf r)
      else none
  | .lose =>
      match s.waiting with
      | some t => if t.attempt = 0 then none else some (t.call, .failed [])
      | none => none
  | _ => none

def moved : LinkMove F → Link F
  | .order request =>
      if s.waiting.isSome then s
      else
        let t : Transmission := ⟨s.requests.length, 0⟩
        { s with
          requests := s.requests ++ [request], inFlight := s.inFlight ++ [t], waiting := some t }
  | .lose =>
      match s.waiting with
      | some t =>
          if t.attempt = 0 then
            { s with inFlight := s.inFlight ++ [⟨t.call, 1⟩], waiting := some ⟨t.call, 1⟩ }
          else s
      | none => s
  | .drop t => { s with inFlight := s.inFlight.erase t }
  | .handle t h =>
      if t ∈ s.inFlight then
        { s with envelope := (s.serve py cfg t h).envelope, inFlight := s.inFlight.erase t }
      else s
  | .other method account =>
      if method = orderSend then s
      else { s with envelope := (s.envelope.checkAccount method account).2 }
  | .restart =>
      { s with envelope := Envelope.start cfg.server.envelope s.envelope.journal }

def step (m : LinkMove F) : Link F :=
  { s.moved py cfg m with
    waiting := if (s.ended? py cfg m).isSome then none else (s.moved py cfg m).waiting
    terminal := s.terminal ++ (s.called? py cfg m).toList
    ends := s.ends ++ (s.ended? py cfg m).toList }

def SameOrder (s : Link F) (c c' : ℕ) : Prop :=
  c = c' ∨ Envelope.keyOf py (s.request c') ≠ [] ∧ s.request c = s.request c'

/-- What every move owes: the terminal is not called for a call again; a call
ends in `BridgeRefused` only where no order for it was executed, and none is
executed later. -/
structure Kept (s : Link F) (m : LinkMove F) : Prop where
  once : ∀ x, s.called? py cfg m = some x → ∀ y ∈ s.terminal, y.call ≠ x.call
  honest : ∀ c text, s.ended? py cfg m = some (c, .refused text) →
    ∀ x ∈ (s.step py cfg m).terminal, x.executed = true → ¬s.SameOrder py x.call c
  stays : ∀ x, s.called? py cfg m = some x → x.executed = true →
    ∀ text, (x.call, .refused text) ∉ s.ends

def Sendable (request : List (Text × Json F)) : Prop :=
  py.decodes (.arr [.obj request]) = true ∧ dict? (.obj request) = some request

def Passes (account : AccountAnswer) (request : List (Text × Json F)) : Prop :=
  OnBoundAccount s.envelope account ∧
    (Envelope.opensPosition py cfg.server.module request = true →
      Envelope.openingCheck py cfg.server.envelope account.type request = none)

def Recorded (request : List (Text × Json F)) : Prop :=
  ∃ entry outcome, s.envelope.journal.get? (Envelope.keyOf py request) = some entry ∧
    entry.outcome = some outcome ∧ outcome ≠ .null

def answerReply : TerminalAnswer F → Reply F
  | .returns encoded => .ok encoded false
  | .raises text => .error text
  | .unencodable text => .error (Refusal.words "unencodable result: " ++ text)

def Answers (s : Link F) (t : Transmission) (h : Handling F) : Prop :=
  s.waiting = some t ∧ h.arrives = true ∧ h.crash = none

/-- What the handling of a line asks for.  A request that is handled again after
the terminal was called for it, and passes the checks, has a comment.  Where it
was executed and the client waits for the reply, it passes the checks and its
outcome is on record.  Where it is executed now, no error of the terminal reads
like a refusal, and the call has not ended in one. -/
structure ClearOf (s : Link F) (t : Transmission) (h : Handling F) : Prop where
  commented : (∃ y ∈ s.terminal, y.call = t.call) → s.Passes py cfg h.account (s.request t.call) →
    h.crash ≠ some .admitted → Envelope.keyOf py (s.request t.call) ≠ []
  recorded : (∃ x ∈ s.terminal, x.executed = true ∧ s.SameOrder py x.call t.call) →
    s.Answers t h → s.Passes py cfg h.account (s.request t.call) ∧
      (Envelope.keyOf py (s.request t.call) ≠ [] → s.Recorded py (s.request t.call))
  quiet : h.executes = true → Sendable py (s.request t.call) →
    s.envelope.Unstopped py cfg.server h.account (s.request t.call) → s.Answers t h →
    ∀ text, endOf (answerReply h.answer) ≠ .refused text
  open_call : h.executes = true → Sendable py (s.request t.call) →
    s.envelope.Unstopped py cfg.server h.account (s.request t.call) →
    h.crash ≠ some .admitted → ∀ text, (t.call, .refused text) ∉ s.ends

def Clear : LinkMove F → Prop
  | .handle t h => t ∈ s.inFlight → s.ClearOf py cfg t h
  | _ => True

/-! ## Texts of refusals -/

theorem looksLikeRefusal_append_left {text : Text} (h : looksLikeRefusal text = true)
    (after : Text) : looksLikeRefusal (text ++ after) = true := by
  rw [looksLikeRefusal, List.any_eq_true] at h ⊢
  obtain ⟨marker, hmem, hinfix⟩ := h
  refine ⟨marker, hmem, ?_⟩
  rw [decide_eq_true_iff] at hinfix ⊢
  exact hinfix.trans (List.prefix_append text after).isInfix

theorem looksLikeRefusal_append_right {text : Text} (h : looksLikeRefusal text = true)
    (before : Text) : looksLikeRefusal (before ++ text) = true := by
  rw [looksLikeRefusal, List.any_eq_true] at h ⊢
  obtain ⟨marker, hmem, hinfix⟩ := h
  refine ⟨marker, hmem, ?_⟩
  rw [decide_eq_true_iff] at hinfix ⊢
  exact hinfix.trans (List.suffix_append before text).isInfix

theorem looksLikeRefusal_message {r : Refusal F} (h : r ≠ .volumeNotNumber) :
    looksLikeRefusal (r.message py cfg.server.envelope) = true := by
  cases r with
  | accountUnreadable text =>
      apply looksLikeRefusal_append_left
      decide +kernel
  | otherAccount login bound =>
      apply looksLikeRefusal_append_right
      decide +kernel
  | otherServer server bound =>
      apply looksLikeRefusal_append_right
      decide +kernel
  | volumeNotNumber => exact absurd rfl h
  | volumeOutside lots =>
      apply looksLikeRefusal_append_left
      apply looksLikeRefusal_append_left
      apply looksLikeRefusal_append_right
      decide +kernel
  | symbolOutside symbol =>
      apply looksLikeRefusal_append_right
      decide +kernel
  | reused key =>
      apply looksLikeRefusal_append_right
      decide +kernel
  | outcomeUnknown key =>
      apply looksLikeRefusal_append_left
      apply looksLikeRefusal_append_right
      decide +kernel
  | notSignedIn =>
      rw [Refusal.message]
      decide +kernel
  | noRequest =>
      rw [Refusal.message]
      decide +kernel
  | liveNotAllowed =>
      rw [Refusal.message]
      decide +kernel
  | accountTypeUnknown =>
      rw [Refusal.message]
      decide +kernel
  | noStop =>
      rw [Refusal.message]
      decide +kernel

theorem endOf_error {text : Text} (h : looksLikeRefusal text = true) :
    endOf (.error text : Reply F) = .refused text := by
  have hne : text ≠ Refusal.words "unauthorised" := by
    rintro rfl
    exact absurd h (by decide +kernel)
  rw [endOf, if_neg hne, if_pos h]

end Link

/-! ## How a line is handled -/

section Admission

variable {py : Host F} {cfg : LinkConfig F} {e : Envelope F} {account : AccountAnswer}
  {request : List (Text × Json F)}

theorem parse_orderLine (py : Host F) (cfg : LinkConfig F) (seq : ℤ)
    (request : List (Text × Json F)) :
    Server.parse py cfg.server (orderLine cfg.server.token seq request) =
      if py.decodes (.arr [.obj request]) = true then
        .method orderSend (.arr [.obj request]) (.obj [])
      else .answered none := by
  have htoken : py.strOf ((member? (orderMembers cfg.server.token seq request) "token").getD
      (.str [])) = cfg.server.token := py.strOf_str _
  have hmethod : py.strOf ((member? (orderMembers cfg.server.token seq request) "method").getD
      (.str [])) = orderSend := py.strOf_str _
  have hargs : Server.orElse py (memberD (orderMembers cfg.server.token seq request) "args")
      (.arr []) = .arr [.obj request] := rfl
  have hkwargs : Server.orElse py (memberD (orderMembers cfg.server.token seq request) "kwargs")
      (.obj []) = .obj [] := rfl
  have hempty : py.decodes (.obj []) = true := rfl
  have hconstants : orderSend ≠ Text.ofString "constants" := by decide
  have hallowed : orderSend ∈ allowedMethods := by decide
  simp only [Server.parse, orderLine, htoken, hmethod, hargs, hkwargs, cfg.token_ascii, hempty,
    cfg.has_orderSend, hconstants, hallowed]
  simp

theorem requestOf_order (py : Host F) (request : List (Text × Json F)) (kwargs : Json F) :
    Envelope.requestOf py (.arr [.obj request]) kwargs = some (.obj request) := rfl

variable (py cfg e account request) in
theorem isSome_sends_iff (seq : ℤ) :
    (Server.sends py cfg.server e account (orderLine cfg.server.token seq request)).isSome ↔
      Link.Sendable py request ∧ e.Unstopped py cfg.server account request := by
  rw [Option.isSome_iff_exists]
  constructor
  · rintro ⟨value, hvalue⟩
    obtain ⟨args, kwargs, request', hparse, hrequest, hdict, hbound, hopening, hjournal, -⟩ :=
      Server.sends_eq_some_iff.1 hvalue
    rw [parse_orderLine] at hparse
    split_ifs at hparse with hdecodes
    obtain ⟨-, rfl, rfl⟩ := Server.Parsed.method.inj hparse
    obtain rfl := Option.some.inj hrequest
    have hsame : request' = request := by
      rw [dict?] at hdict
      split_ifs at hdict
      exact (Option.some.inj hdict).symm
    subst hsame
    exact ⟨⟨hdecodes, hdict⟩, ⟨hbound, hopening, hjournal⟩⟩
  · rintro ⟨⟨hdecodes, hdict⟩, hbound, hopening, hjournal⟩
    have hparse : Server.parse py cfg.server (orderLine cfg.server.token seq request) =
        .method orderSend (.arr [.obj request]) (.obj []) := by
      rw [parse_orderLine, if_pos hdecodes]
    exact ⟨.obj request, Server.sends_eq_some_iff.2 ⟨_, _, request, hparse, rfl, hdict, hbound,
      hopening, hjournal, rfl⟩⟩

theorem screen_of_sendable (h : Link.Sendable py request) (seq : ℤ) :
    Server.screen py cfg.server e account (orderLine cfg.server.token seq request) =
      Server.route py cfg.server e account orderSend (.arr [.obj request]) (.obj []) := by
  rw [Server.screen, parse_orderLine, if_pos h.1]

theorem handle_of_not_bound (h : Link.Sendable py request) (hbound : ¬OnBoundAccount e account)
    (answer : TerminalAnswer F) (seq : ℤ) : ∃ text,
    (Server.handle py cfg.server e account answer (orderLine cfg.server.token seq request)).1 =
      some (.error text) ∧ looksLikeRefusal text = true := by
  rw [← Envelope.checkAccount_eq_none_iff Envelope.orderSend_bound] at hbound
  rcases hcheck : e.checkAccount orderSend account with ⟨refusal, read⟩
  rw [hcheck] at hbound
  cases refusal with
  | none => exact absurd rfl hbound
  | some r =>
      refine ⟨r.message py cfg.server.envelope, ?_, ?_⟩
      · rw [Server.handle, screen_of_sendable h, Server.route, hcheck]
      · apply Link.looksLikeRefusal_message
        exact Envelope.checkAccount_ne (congrArg Prod.fst hcheck)

def orderRoute (py : Host F) (cfg : LinkConfig F) (read : Envelope F)
    (request : List (Text × Json F)) : Admission F × Envelope F :=
  match read.checkOrder py cfg.server.envelope cfg.server.module (.arr [.obj request])
      (.obj []) with
  | (.refuse r, e) => (.reply (.error (r.message py cfg.server.envelope)), e)
  | (.replay outcome, e) => (.reply (.ok outcome true), e)
  | (.raises, e) => (.raises, e)
  | (.forward key, e) => (.call orderSend (.arr [.obj request]) (.obj []) key, e)

theorem screen_of_bound (h : Link.Sendable py request) (hbound : OnBoundAccount e account)
    (seq : ℤ) :
    Server.screen py cfg.server e account (orderLine cfg.server.token seq request) =
      orderRoute py cfg (e.checkAccount orderSend account).2 request := by
  have hnone := (Envelope.checkAccount_eq_none_iff Envelope.orderSend_bound account).2 hbound
  rw [screen_of_sendable h, Server.route, orderRoute]
  rcases hcheck : e.checkAccount orderSend account with ⟨refusal, read⟩
  rw [hcheck] at hnone
  obtain rfl : refusal = none := hnone
  rfl

theorem checkOrder_of_dict (h : dict? (.obj request) = some request) (read : Envelope F) :
    read.checkOrder py cfg.server.envelope cfg.server.module (.arr [.obj request]) (.obj []) =
      match (if Envelope.opensPosition py cfg.server.module request then
        Envelope.openingCheck py cfg.server.envelope read.accountType request else none) with
      | some check => (check, read)
      | none => read.journalCheck py request := by
  rw [Envelope.checkOrder, requestOf_order]
  dsimp only
  generalize dict? (.obj request) = read? at h ⊢
  subst h
  rfl

theorem handle_of_refused (h : Link.Sendable py request) (hbound : OnBoundAccount e account)
    (hopens : Envelope.opensPosition py cfg.server.module request = true) {r : Refusal F}
    (hcheck : Envelope.openingCheck py cfg.server.envelope account.type request =
      some (.refuse r)) (answer : TerminalAnswer F) (seq : ℤ) :
    (Server.handle py cfg.server e account answer (orderLine cfg.server.token seq request)).1 =
      some (.error (r.message py cfg.server.envelope)) := by
  rw [← Envelope.accountType_checkAccount Envelope.orderSend_bound hbound] at hcheck
  rw [Server.handle, screen_of_bound h hbound, orderRoute, checkOrder_of_dict h.2, if_pos hopens,
    hcheck]

theorem screen_of_passes (h : Link.Sendable py request) (hbound : OnBoundAccount e account)
    (hopening : Envelope.opensPosition py cfg.server.module request = true →
      Envelope.openingCheck py cfg.server.envelope account.type request = none) :
    (e.checkAccount orderSend account).2.checkOrder py cfg.server.envelope cfg.server.module
        (.arr [.obj request]) (.obj []) =
      (e.checkAccount orderSend account).2.journalCheck py request := by
  rw [← Envelope.accountType_checkAccount Envelope.orderSend_bound hbound] at hopening
  rw [checkOrder_of_dict h.2]
  split_ifs with hopens
  · rw [hopening hopens]
  · rfl

theorem handle_of_prior (h : Link.Sendable py request) (hbound : OnBoundAccount e account)
    (hopening : Envelope.opensPosition py cfg.server.module request = true →
      Envelope.openingCheck py cfg.server.envelope account.type request = none)
    (hkey : Envelope.keyOf py request ≠ []) {entry : JournalEntry F}
    (hentry : e.journal.get? (Envelope.keyOf py request) = some entry)
    (hhash : entry.hash = py.digest (.obj request)) (answer : TerminalAnswer F) (seq : ℤ) :
    (Server.handle py cfg.server e account answer (orderLine cfg.server.token seq request)).1 =
      match entry.outcome with
      | none => some (.error
          ((Refusal.outcomeUnknown (Envelope.keyOf py request)).message py cfg.server.envelope))
      | some .null => some (.error
          ((Refusal.outcomeUnknown (Envelope.keyOf py request)).message py cfg.server.envelope))
      | some outcome => some (.ok outcome true) := by
  have hjournal := (e.checkAccount_keeps orderSend account).1
  rw [Server.handle, screen_of_bound h hbound, orderRoute, screen_of_passes h hbound hopening,
    Envelope.journalCheck, if_neg hkey, hjournal, hentry]
  simp only [hhash, ne_eq, not_true_eq_false, if_false]
  cases entry.outcome with
  | none => rfl
  | some outcome => cases outcome <;> rfl

variable (cfg) in
theorem handle_of_unstopped (h : Link.Sendable py request)
    (hun : e.Unstopped py cfg.server account request) (answer : TerminalAnswer F) (seq : ℤ) :
    (Server.handle py cfg.server e account answer (orderLine cfg.server.token seq request)).1 =
      some (Link.answerReply answer) := by
  have hjournal := (e.checkAccount_keeps orderSend account).1
  rw [Server.handle, screen_of_bound h hun.on_account, orderRoute,
    screen_of_passes h hun.on_account hun.opening, Envelope.journalCheck]
  by_cases hkey : Envelope.keyOf py request = []
  · rw [if_pos hkey]
    cases answer <;> rfl
  · have hfree := hun.journal.resolve_left hkey
    rw [if_neg hkey, hjournal, hfree]
    cases answer <;> rfl

theorem openingCheck_cases {accountType : AccountType}
    (h : Envelope.openingCheck py cfg.server.envelope accountType request = none)
    (accountType' : AccountType) :
    Envelope.openingCheck py cfg.server.envelope accountType' request = none ∨
      Envelope.openingCheck py cfg.server.envelope accountType' request =
        some (.refuse .liveNotAllowed) ∨
      Envelope.openingCheck py cfg.server.envelope accountType' request =
        some (.refuse .accountTypeUnknown) := by
  obtain ⟨-, hrest⟩ := Envelope.openingCheck_eq_none_iff.1 h
  by_cases hlive : accountType' = .live ∧ cfg.server.envelope.allowLive = false
  · refine .inr (.inl ?_)
    rw [Envelope.openingCheck, if_pos hlive]
  · by_cases hunknown : accountType' = .unknown
    · refine .inr (.inr ?_)
      rw [Envelope.openingCheck, if_neg hlive, if_pos hunknown]
    · refine .inl (Envelope.openingCheck_eq_none_iff.2 ⟨?_, hrest⟩)
      cases accountType' with
      | demo => exact .inl rfl
      | live => exact .inr ⟨rfl, by simpa using hlive⟩
      | unknown => exact absurd rfl hunknown

end Admission

/-! ## The journal forgets nothing -/

def Envelope.KeepsJournal (e e' : Envelope F) : Prop :=
  ∀ key entry, e.journal.get? key = some entry →
    ∃ entry', e'.journal.get? key = some entry' ∧ entry'.hash = entry.hash

namespace Envelope

variable {py : Host F} {cfg : ServerConfig F} {e e' e'' : Envelope F}

theorem keepsJournal_of_eq (h : e'.journal = e.journal) : e.KeepsJournal e' := by
  intro key entry hentry
  rw [h]
  exact ⟨entry, hentry, rfl⟩

theorem KeepsJournal.trans (h : e.KeepsJournal e') (h' : e'.KeepsJournal e'') :
    e.KeepsJournal e'' := by
  intro key entry hentry
  obtain ⟨entry', hentry', hhash⟩ := h key entry hentry
  obtain ⟨entry'', hentry'', hhash'⟩ := h' key entry' hentry'
  exact ⟨entry'', hentry'', hhash'.trans hhash⟩

variable (e : Envelope F)

theorem keepsJournal_journalCheck (request : List (Text × Json F)) :
    e.KeepsJournal (e.journalCheck py request).2 := by
  rw [journalCheck]
  split_ifs with hkey
  · exact keepsJournal_of_eq rfl
  · cases hprior : e.journal.get? (keyOf py request) with
    | none =>
        -- the key is new, so it is none of those that are there
        intro key entry hentry
        have hne : key ≠ keyOf py request := by
          rintro rfl
          rw [hprior] at hentry
          cases hentry
        exact ⟨entry, (e.journal.get?_set_of_ne hne _).trans hentry, rfl⟩
    | some prior =>
        simp only
        split_ifs
        · exact keepsJournal_of_eq rfl
        · cases prior.outcome with
          | none => exact keepsJournal_of_eq rfl
          | some outcome => cases outcome <;> exact keepsJournal_of_eq rfl

variable (py cfg) in
theorem keepsJournal_checkOrder (args kwargs : Json F) :
    e.KeepsJournal (e.checkOrder py cfg.envelope cfg.module args kwargs).2 := by
  rw [checkOrder]
  cases requestOf py args kwargs with
  | none => exact keepsJournal_of_eq rfl
  | some value =>
      simp only
      cases dict? value with
      | none => exact keepsJournal_of_eq rfl
      | some request =>
          simp only
          split
          · exact keepsJournal_of_eq rfl
          · exact e.keepsJournal_journalCheck request

theorem keepsJournal_screen (account : AccountAnswer) (req : Json F) :
    e.KeepsJournal (Server.screen py cfg e account req).2 := by
  rw [Server.screen]
  cases Server.parse py cfg req with
  | answered r => cases r <;> exact keepsJournal_of_eq rfl
  | method name args kwargs =>
      have hread := keepsJournal_of_eq (e.checkAccount_keeps name account).1
      simp only [Server.route]
      rcases hcheck : e.checkAccount name account with ⟨refusal, read⟩
      rw [hcheck] at hread
      cases refusal with
      | some r => exact hread
      | none =>
          simp only
          split_ifs
          · have horder := read.keepsJournal_checkOrder py cfg args kwargs
            rcases horder' : read.checkOrder py cfg.envelope cfg.module args kwargs with
              ⟨check, after⟩
            rw [horder'] at horder
            cases check <;> exact hread.trans horder
          · exact hread

theorem keepsJournal_finish (key : Option Text) (answer : TerminalAnswer F) :
    e.KeepsJournal (Server.finish e key answer).2 := by
  have hrecord : ∀ outcome : Json F, e.KeepsJournal (Server.record e key outcome) := by
    intro outcome
    cases key with
    | none => exact keepsJournal_of_eq rfl
    | some key =>
        intro key' entry hentry
        by_cases hkey : key' = key
        · subst hkey
          refine ⟨{ entry with outcome := some outcome }, ?_, rfl⟩
          rw [Server.record, recordOutcome, Dict.get?_adjust_self, hentry]
          rfl
        · exact ⟨entry, (e.journal.get?_adjust_of_ne hkey _).trans hentry, rfl⟩
  cases answer with
  | returns encoded => exact hrecord encoded
  | raises text => exact hrecord .null
  | unencodable text => exact hrecord .null

variable (py cfg) in
theorem keepsJournal_handled (account : AccountAnswer)
    (answer : TerminalAnswer F) (req : Json F) :
    (Server.screen py cfg e account req).2.KeepsJournal
      (Server.handle py cfg e account answer req).2 := by
  rw [Server.handle]
  rcases Server.screen py cfg e account req with ⟨admission, after⟩
  cases admission with
  | reply r => exact keepsJournal_of_eq rfl
  | raises => exact keepsJournal_of_eq rfl
  | call method args kwargs key => exact after.keepsJournal_finish key answer
  | miscall kwargs key => exact after.keepsJournal_finish key _

end Envelope

theorem journal_screen {py : Host F} (cfg : LinkConfig F) {e : Envelope F}
    {account : AccountAnswer} {request : List (Text × Json F)} (h : Link.Sendable py request)
    (hun : e.Unstopped py cfg.server account request) (hkey : Envelope.keyOf py request ≠ [])
    (seq : ℤ) :
    (Server.screen py cfg.server e account (orderLine cfg.server.token seq request)).2.journal.get?
      (Envelope.keyOf py request) = some { hash := py.digest (.obj request) } := by
  have hfree := hun.journal.resolve_left hkey
  rw [screen_of_bound h hun.on_account, orderRoute,
    screen_of_passes h hun.on_account hun.opening, Envelope.journalCheck, if_neg hkey,
    (e.checkAccount_keeps orderSend account).1, hfree]
  exact Dict.get?_set_self _ _ _

/-! ## What holds along a run -/

namespace Link

variable {py : Host F} {cfg : LinkConfig F} {s : Link F}

structure Sent (py : Host F) (cfg : LinkConfig F) (e : Envelope F)
    (request : List (Text × Json F)) : Prop where
  sendable : Sendable py request
  opening : ∃ accountType, Envelope.opensPosition py cfg.server.module request = true →
    Envelope.openingCheck py cfg.server.envelope accountType request = none
  journaled : Envelope.keyOf py request ≠ [] → ∃ entry,
    e.journal.get? (Envelope.keyOf py request) = some entry ∧
      entry.hash = py.digest (.obj request)

structure Sound (py : Host F) (cfg : LinkConfig F) (s : Link F) : Prop where
  sent : ∀ x ∈ s.terminal, x.call < s.requests.length ∧ Sent py cfg s.envelope (s.request x.call)
  inFlight : ∀ t ∈ s.inFlight, t.call < s.requests.length
  waiting : ∀ t, s.waiting = some t → t.call < s.requests.length

theorem Sent.keeps {e e' : Envelope F} {request : List (Text × Json F)}
    (h : Sent py cfg e request) (hkeeps : e.KeepsJournal e') : Sent py cfg e' request := by
  refine ⟨h.sendable, h.opening, ?_⟩
  intro hkey
  obtain ⟨entry, hentry, hhash⟩ := h.journaled hkey
  obtain ⟨entry', hentry', hhash'⟩ := hkeeps _ entry hentry
  exact ⟨entry', hentry', hhash'.trans hhash⟩

theorem calls_iff (s : Link F) (t : Transmission) (h : Handling F) :
    (s.serve py cfg t h).calls = true ↔ Sendable py (s.request t.call) ∧
      s.envelope.Unstopped py cfg.server h.account (s.request t.call) ∧
      h.crash ≠ some .admitted := by
  rw [serve, line]
  cases hcrash : h.crash with
  | none => simp [isSome_sends_iff]
  | some point => cases point <;> simp [isSome_sends_iff]

variable {t : Transmission} {d : Handling F}

theorem reply_of_crash_none {h : Handling F} (hcrash : h.crash = none) :
    (s.serve py cfg t h).reply =
      (Server.handle py cfg.server s.envelope h.account h.answer (s.line cfg t)).1 := by
  rw [serve, hcrash]

theorem crash_none_of_reply {h : Handling F} {r : Reply F}
    (hr : (s.serve py cfg t h).reply = some r) : h.crash = none := by
  rw [serve] at hr
  cases hcrash : h.crash with
  | none => rfl
  | some point =>
      rw [hcrash] at hr
      cases point <;> cases hr

variable (py cfg) in
theorem keepsJournal_serve (s : Link F) (t : Transmission) (h : Handling F) :
    (Server.screen py cfg.server s.envelope h.account (s.line cfg t)).2.KeepsJournal
      (s.serve py cfg t h).envelope := by
  have hhandled := s.envelope.keepsJournal_handled py cfg.server h.account
    h.answer (s.line cfg t)
  rw [serve]
  cases h.crash with
  | none => exact hhandled
  | some point =>
      cases point with
      | admitted => exact Envelope.keepsJournal_of_eq rfl
      | called => exact Envelope.keepsJournal_of_eq rfl
      | recorded => exact hhandled.trans (Envelope.keepsJournal_of_eq rfl)

theorem keepsJournal_step (s : Link F) (m : LinkMove F) :
    s.envelope.KeepsJournal (s.step py cfg m).envelope := by
  cases m with
  | order request =>
      simp only [step, moved]
      split_ifs <;> exact Envelope.keepsJournal_of_eq rfl
  | lose =>
      simp only [step, moved]
      split
      · split_ifs <;> exact Envelope.keepsJournal_of_eq rfl
      · exact Envelope.keepsJournal_of_eq rfl
  | drop t => exact Envelope.keepsJournal_of_eq rfl
  | handle t h =>
      simp only [step, moved]
      split_ifs
      · exact (s.envelope.keepsJournal_screen h.account (s.line cfg t)).trans
          (s.keepsJournal_serve py cfg t h)
      · exact Envelope.keepsJournal_of_eq rfl
  | other method account =>
      simp only [step, moved]
      split_ifs
      · exact Envelope.keepsJournal_of_eq rfl
      · exact Envelope.keepsJournal_of_eq (s.envelope.checkAccount_keeps method account).1
  | restart => exact Envelope.keepsJournal_of_eq rfl

variable (py cfg) in
theorem request_step {c : ℕ} (hc : c < s.requests.length) (m : LinkMove F) :
    c < (s.step py cfg m).requests.length ∧ (s.step py cfg m).request c = s.request c := by
  cases m with
  | order request =>
      simp only [step, moved, Link.request]
      split_ifs
      · exact ⟨hc, rfl⟩
      · refine ⟨by simpa using Nat.lt_succ_of_lt hc, ?_⟩
        simp [List.getElem?_append_left hc]
  | lose =>
      simp only [step, moved, Link.request]
      split
      · split_ifs <;> exact ⟨hc, rfl⟩
      · exact ⟨hc, rfl⟩
  | drop t => exact ⟨hc, rfl⟩
  | handle t h =>
      simp only [step, moved, Link.request]
      split_ifs <;> exact ⟨hc, rfl⟩
  | other method account =>
      simp only [step, moved, Link.request]
      split_ifs <;> exact ⟨hc, rfl⟩
  | restart => exact ⟨hc, rfl⟩

theorem called?_eq_some {m : LinkMove F} {x : TerminalCall} (h : s.called? py cfg m = some x) :
    ∃ t d, m = .handle t d ∧ t ∈ s.inFlight ∧ x = ⟨t.call, d.executes⟩ ∧
      Sendable py (s.request t.call) ∧
      s.envelope.Unstopped py cfg.server d.account (s.request t.call) ∧
      d.crash ≠ some .admitted := by
  cases m with
  | handle t d =>
      simp only [called?] at h
      split_ifs at h with hcalls
      exact ⟨t, d, rfl, hcalls.1, (Option.some.inj h).symm, (s.calls_iff t d).1 hcalls.2⟩
  | order request => cases h
  | lose => cases h
  | drop t => cases h
  | other method account => cases h
  | restart => cases h

theorem sent_of_called (ht : t ∈ s.inFlight)
    (hsend : Sendable py (s.request t.call))
    (hun : s.envelope.Unstopped py cfg.server d.account (s.request t.call)) :
    Sent py cfg (s.step py cfg (.handle t d)).envelope (s.request t.call) := by
  refine ⟨hsend, ⟨d.account.type, hun.opening⟩, ?_⟩
  intro hkey
  obtain ⟨entry, hentry, hhash⟩ := s.keepsJournal_serve py cfg t d _ _
    (journal_screen cfg hsend hun hkey t.call)
  refine ⟨entry, ?_, hhash⟩
  simp only [step, moved, if_pos ht]
  exact hentry

theorem Sound.moved (h : Sound py cfg s) (m : LinkMove F) :
    (∀ t ∈ (s.moved py cfg m).inFlight, t.call < (s.moved py cfg m).requests.length) ∧
      ∀ t, (s.moved py cfg m).waiting = some t → t.call < (s.moved py cfg m).requests.length := by
  cases m with
  | order request =>
      simp only [Link.moved]
      split_ifs
      · exact ⟨h.inFlight, h.waiting⟩
      · refine ⟨?_, ?_⟩
        · intro t ht
          rw [List.mem_append, List.mem_singleton] at ht
          rw [List.length_append, List.length_singleton]
          rcases ht with hold | rfl
          · exact Nat.lt_succ_of_lt (h.inFlight t hold)
          · exact Nat.lt_succ_self _
        · rintro t ht
          obtain rfl := Option.some.inj ht
          simp
  | lose =>
      simp only [Link.moved]
      split
      · rename_i t hwaiting
        split_ifs
        · refine ⟨?_, ?_⟩
          · intro t' ht'
            rw [List.mem_append, List.mem_singleton] at ht'
            rcases ht' with hold | rfl
            · exact h.inFlight t' hold
            · exact h.waiting t hwaiting
          · rintro t' ht'
            obtain rfl := Option.some.inj ht'
            exact h.waiting t hwaiting
        · exact ⟨h.inFlight, h.waiting⟩
      · exact ⟨h.inFlight, h.waiting⟩
  | drop t => exact ⟨fun t' ht' => h.inFlight t' (List.mem_of_mem_erase ht'), h.waiting⟩
  | handle t d =>
      simp only [Link.moved]
      split_ifs
      · exact ⟨fun t' ht' => h.inFlight t' (List.mem_of_mem_erase ht'), h.waiting⟩
      · exact ⟨h.inFlight, h.waiting⟩
  | other method account =>
      simp only [Link.moved]
      split_ifs <;> exact ⟨h.inFlight, h.waiting⟩
  | restart => exact ⟨h.inFlight, h.waiting⟩

theorem Sound.step (h : Sound py cfg s) (m : LinkMove F) : Sound py cfg (s.step py cfg m) := by
  constructor
  · intro x hx
    rw [Link.step, List.mem_append, Option.mem_toList] at hx
    rcases hx with hold | hnew
    · obtain ⟨hlt, hsent⟩ := h.sent x hold
      have hrequest := request_step py cfg hlt m
      refine ⟨hrequest.1, ?_⟩
      rw [hrequest.2]
      exact hsent.keeps (s.keepsJournal_step m)
    · obtain ⟨t, d, rfl, ht, rfl, hsend, hun, -⟩ := called?_eq_some hnew
      have hrequest := request_step py cfg (h.inFlight t ht) (.handle t d)
      refine ⟨hrequest.1, ?_⟩
      rw [hrequest.2]
      exact sent_of_called ht hsend hun
  · exact (h.moved m).1
  · intro t ht
    rw [Link.step] at ht
    split_ifs at ht
    exact (h.moved m).2 t ht

/-! ## One move and whole runs -/

theorem Sent.of_sameOrder {e : Envelope F} {c c' : ℕ} (h : Sent py cfg e (s.request c))
    (hsame : s.SameOrder py c c') : Sent py cfg e (s.request c') := by
  rcases hsame with rfl | ⟨-, hrequest⟩
  · exact h
  · rwa [← hrequest]

variable (py cfg) in
theorem ended?_handle (ht : t ∈ s.inFlight)
    (hanswers : s.Answers t d) :
    s.ended? py cfg (.handle t d) =
      (Server.handle py cfg.server s.envelope d.account d.answer (s.line cfg t)).1.map
        fun r => (t.call, endOf r) := by
  rw [ended?, if_pos ⟨ht, hanswers.1, hanswers.2.1⟩, reply_of_crash_none hanswers.2.2]

theorem ended?_refused {m : LinkMove F} {c : ℕ} {text : Text}
    (h : s.ended? py cfg m = some (c, .refused text)) :
    ∃ t d, m = .handle t d ∧ t ∈ s.inFlight ∧ c = t.call ∧ s.Answers t d ∧ ∃ r,
      (Server.handle py cfg.server s.envelope d.account d.answer (s.line cfg t)).1 = some r ∧
        endOf r = .refused text := by
  cases m with
  | handle t d =>
      rw [ended?] at h
      split_ifs at h with hlive
      obtain ⟨r, hr, hend⟩ := Option.map_eq_some_iff.1 h
      have hcrash := crash_none_of_reply hr
      rw [reply_of_crash_none hcrash] at hr
      obtain ⟨hc, hendr⟩ := Prod.mk.inj hend
      exact ⟨t, d, rfl, hlive.1, hc.symm, ⟨hlive.2.1, hlive.2.2, hcrash⟩, r, hr, hendr⟩
  | lose =>
      simp only [ended?] at h
      split at h
      · split_ifs at h
        cases h
      · cases h
  | order request => cases h
  | drop t => cases h
  | other method account => cases h
  | restart => cases h

theorem refused_of_sent (hsent : Sent py cfg s.envelope (s.request t.call))
    (hnot : ¬(s.Passes py cfg d.account (s.request t.call) ∧
      (Envelope.keyOf py (s.request t.call) ≠ [] → s.Recorded py (s.request t.call)))) :
    ∃ text, (Server.handle py cfg.server s.envelope d.account d.answer (s.line cfg t)).1 =
      some (.error text) ∧ looksLikeRefusal text = true := by
  by_cases hbound : OnBoundAccount s.envelope d.account
  · by_cases hopening : Envelope.opensPosition py cfg.server.module (s.request t.call) = true →
        Envelope.openingCheck py cfg.server.envelope d.account.type (s.request t.call) = none
    · -- so the journal refuses
      rw [not_and] at hnot
      have hrecorded := hnot ⟨hbound, hopening⟩
      rw [Classical.not_imp] at hrecorded
      obtain ⟨hkey, hmissing⟩ := hrecorded
      obtain ⟨entry, hentry, hhash⟩ := hsent.journaled hkey
      let unknown : Refusal F := .outcomeUnknown (Envelope.keyOf py (s.request t.call))
      refine ⟨unknown.message py cfg.server.envelope, ?_,
        looksLikeRefusal_message py cfg (by simp [unknown])⟩
      rw [line, handle_of_prior hsent.sendable hbound hopening hkey hentry hhash]
      cases houtcome : entry.outcome with
      | none => rfl
      | some outcome =>
          cases outcome with
          | null => rfl
          | _ => exact absurd ⟨entry, _, hentry, houtcome, by simp⟩ hmissing
    · rw [Classical.not_imp] at hopening
      obtain ⟨hopens, hcheck⟩ := hopening
      obtain ⟨accountType, hpassed⟩ := hsent.opening
      rcases openingCheck_cases (hpassed hopens) d.account.type with h | h | h
      · exact absurd h hcheck
      · exact ⟨_, handle_of_refused hsent.sendable hbound hopens h d.answer t.call,
          looksLikeRefusal_message py cfg (by simp)⟩
      · exact ⟨_, handle_of_refused hsent.sendable hbound hopens h d.answer t.call,
          looksLikeRefusal_message py cfg (by simp)⟩
  · exact handle_of_not_bound hsent.sendable hbound d.answer t.call

theorem result_of_recorded (hsent : Sent py cfg s.envelope (s.request t.call))
    (hpasses : s.Passes py cfg d.account (s.request t.call))
    (hkey : Envelope.keyOf py (s.request t.call) ≠ [])
    (hrecorded : s.Recorded py (s.request t.call)) : ∃ outcome,
    (Server.handle py cfg.server s.envelope d.account d.answer (s.line cfg t)).1 =
      some (.ok outcome true) := by
  obtain ⟨entry, outcome, hentry, houtcome, hne⟩ := hrecorded
  obtain ⟨entry', hentry', hhash⟩ := hsent.journaled hkey
  obtain rfl := Option.some.inj (hentry.symm.trans hentry')
  refine ⟨outcome, ?_⟩
  rw [line, handle_of_prior hsent.sendable hpasses.1 hpasses.2 hkey hentry hhash, houtcome]
  cases outcome with
  | null => exact absurd rfl hne
  | _ => rfl

theorem Kept.clearOf (hs : Sound py cfg s) {t : Transmission} {d : Handling F}
    (h : s.Kept py cfg (.handle t d)) (ht : t ∈ s.inFlight) : s.ClearOf py cfg t d := by
  have hcalled : Sendable py (s.request t.call) →
      s.envelope.Unstopped py cfg.server d.account (s.request t.call) →
      d.crash ≠ some .admitted →
      s.called? py cfg (.handle t d) = some ⟨t.call, d.executes⟩ := by
    intro hsend hun hcrash
    rw [called?, if_pos ⟨ht, (s.calls_iff t d).2 ⟨hsend, hun, hcrash⟩⟩]
  constructor
  · rintro ⟨y, hy, hcall⟩ hpasses hcrash hkey
    -- without a comment nothing in the journal stops the request
    have hsent := (hs.sent y hy).2
    rw [hcall] at hsent
    exact h.once _ (hcalled hsent.sendable ⟨hpasses.1, hpasses.2, .inl hkey⟩ hcrash) y hy hcall
  · rintro ⟨x, hx, hexecuted, hsame⟩ hanswers
    by_contra hnot
    obtain ⟨text, htext, hrefusal⟩ :=
      refused_of_sent ((hs.sent x hx).2.of_sameOrder hsame) hnot
    have hended := ended?_handle py cfg ht hanswers
    rw [htext, Option.map_some, endOf_error hrefusal] at hended
    exact h.honest _ _ hended x (List.mem_append_left _ hx) hexecuted hsame
  · intro hexecutes hsend hun hanswers text hrefused
    have hended := ended?_handle py cfg ht hanswers
    rw [line, handle_of_unstopped cfg hsend hun, Option.map_some, hrefused] at hended
    have hcrash : d.crash ≠ some .admitted := by
      rw [hanswers.2.2]
      simp
    refine h.honest _ _ hended ⟨t.call, d.executes⟩ ?_ hexecutes (.inl rfl)
    rw [Link.step, hcalled hsend hun hcrash]
    simp
  · intro hexecutes hsend hun hcrash
    exact h.stays _ (hcalled hsend hun hcrash) hexecutes

theorem ClearOf.kept (hs : Sound py cfg s) {t : Transmission} {d : Handling F}
    (h : s.ClearOf py cfg t d) : s.Kept py cfg (.handle t d) := by
  constructor
  · intro x hx y hy hcall
    obtain ⟨t', d', hm, -, rfl, hsend, hun, hcrash⟩ := called?_eq_some hx
    obtain ⟨rfl, rfl⟩ := LinkMove.handle.inj hm
    have hsent := (hs.sent y hy).2
    rw [hcall] at hsent
    have hkey := h.commented ⟨y, hy, hcall⟩ ⟨hun.on_account, hun.opening⟩ hcrash
    obtain ⟨entry, hentry, -⟩ := hsent.journaled hkey
    have hfree := hun.journal.resolve_left hkey
    rw [hentry] at hfree
    cases hfree
  · intro c text hended x hx hexecuted hsame
    obtain ⟨t', d', hm, -, rfl, hanswers, r, hr, hend⟩ := ended?_refused hended
    obtain ⟨rfl, rfl⟩ := LinkMove.handle.inj hm
    rw [Link.step, List.mem_append, Option.mem_toList] at hx
    rcases hx with hold | hnew
    · obtain ⟨hpasses, hrecorded⟩ := h.recorded ⟨x, hold, hexecuted, hsame⟩ hanswers
      have hkey : Envelope.keyOf py (s.request t.call) ≠ [] := by
        rcases hsame with hcall | ⟨hkey, -⟩
        · apply h.commented ⟨x, hold, hcall⟩ hpasses
          rw [hanswers.2.2]
          simp
        · exact hkey
      obtain ⟨outcome, hresult⟩ := result_of_recorded
        ((hs.sent x hold).2.of_sameOrder hsame) hpasses hkey (hrecorded hkey)
      obtain rfl := Option.some.inj (hresult.symm.trans hr)
      cases hend
    · obtain ⟨t', d', hm, -, rfl, hsend, hun, -⟩ := called?_eq_some hnew
      obtain ⟨rfl, rfl⟩ := LinkMove.handle.inj hm
      have hreply := handle_of_unstopped cfg hsend hun d.answer t.call
      rw [line, hreply] at hr
      obtain rfl := Option.some.inj hr
      exact h.quiet hexecuted hsend hun hanswers text hend
  · intro x hx hexecuted
    obtain ⟨t', d', hm, -, rfl, hsend, hun, hcrash⟩ := called?_eq_some hx
    obtain ⟨rfl, rfl⟩ := LinkMove.handle.inj hm
    exact h.open_call hexecuted hsend hun hcrash

theorem kept_of_quiet {m : LinkMove F} (h : ∀ t d, m ≠ .handle t d ∨ t ∉ s.inFlight) :
    s.Kept py cfg m := by
  constructor
  · intro x hx
    obtain ⟨t, d, rfl, ht, -⟩ := called?_eq_some hx
    exact absurd ht ((h t d).resolve_left (not_not.2 rfl))
  · intro c text hended
    obtain ⟨t, d, rfl, ht, -⟩ := ended?_refused hended
    exact absurd ht ((h t d).resolve_left (not_not.2 rfl))
  · intro x hx
    obtain ⟨t, d, rfl, ht, -⟩ := called?_eq_some hx
    exact absurd ht ((h t d).resolve_left (not_not.2 rfl))

theorem kept_iff_clear (hs : Sound py cfg s) (m : LinkMove F) :
    s.Kept py cfg m ↔ s.Clear py cfg m := by
  cases m with
  | handle t d =>
      by_cases ht : t ∈ s.inFlight
      · exact ⟨fun h _ => h.clearOf hs ht, fun h => (h ht).kept hs⟩
      · refine ⟨fun _ h => absurd h ht, fun _ => kept_of_quiet ?_⟩
        intro t' d'
        by_cases hsame : t' = t
        · exact .inr (hsame ▸ ht)
        · exact .inl fun hm => hsame (LinkMove.handle.inj hm).1.symm
  | order request => exact ⟨fun _ => trivial, fun _ => kept_of_quiet fun _ _ => .inl (by simp)⟩
  | lose => exact ⟨fun _ => trivial, fun _ => kept_of_quiet fun _ _ => .inl (by simp)⟩
  | drop t => exact ⟨fun _ => trivial, fun _ => kept_of_quiet fun _ _ => .inl (by simp)⟩
  | other method account =>
      exact ⟨fun _ => trivial, fun _ => kept_of_quiet fun _ _ => .inl (by simp)⟩
  | restart => exact ⟨fun _ => trivial, fun _ => kept_of_quiet fun _ _ => .inl (by simp)⟩

def new (cfg : LinkConfig F) (journal : Dict Text (JournalEntry F)) : Link F where
  envelope := Envelope.start cfg.server.envelope journal

theorem sound_new (py : Host F) (cfg : LinkConfig F) (journal : Dict Text (JournalEntry F)) :
    Sound py cfg (new cfg journal) := by
  constructor <;> simp [new]

/-- In runs of any length, over any order of handling, losses and crashes: the
terminal is called at most once for a call and refusals are honest, exactly when
every move is clear. -/
theorem linkKept_run_iff (py : Host F) (cfg : LinkConfig F)
    (journal : Dict Text (JournalEntry F)) (ms : List (LinkMove F)) :
    Along (Link.step py cfg) (Kept py cfg) (new cfg journal) ms ↔
      Along (Link.step py cfg) (Clear py cfg) (new cfg journal) ms := by
  apply Along.iff_of_kept (I := Sound py cfg)
  · exact fun s m hs _ => hs.step m
  · exact fun s m hs => kept_iff_clear hs m
  · exact sound_new py cfg journal

end Link

/-! ## An order that is executed and refused -/

/-- The server of `plainServer`, with its client. -/
def plainLink : LinkConfig FloatText where
  server := plainServer
  token_ascii := by decide +kernel
  has_orderSend := rfl

def commentedClose : List (Text × Json FloatText) :=
  [(Text.ofString "action", .int 1), (Text.ofString "position", .int 5),
    (Text.ofString "comment", .str (Text.ofString "close:trail"))]

def demoAccount : AccountAnswer := .info (Text.ofString "1001") (Text.ofString "Demo") (some 0)

def crashedRun : List (LinkMove FloatText) :=
  [.order commentedClose,
    .handle ⟨0, 0⟩ { account := demoAccount, answer := .returns .null, executes := true
                     crash := some .called },
    .lose]

/-- The server crashes after the terminal executed the order, and the client,
which sends it again, is refused. -/
theorem not_linkKept_crash :
    ¬Along (Link.step plainHost plainLink) (Link.Kept plainHost plainLink)
      (Link.new plainLink Dict.empty)
      (crashedRun ++
        [.handle ⟨0, 1⟩
          { account := demoAccount, answer := .returns .null, executes := false }]) := by
  intro h
  let s := crashedRun.foldl (Link.step plainHost plainLink) (Link.new plainLink Dict.empty)
  have hs : Link.Sound plainHost plainLink s :=
    (((Link.sound_new _ _ _).step _).step _).step _
  have hclear := (Link.kept_iff_clear hs _).1 h.2.2.2.1 (by decide +kernel)
  obtain ⟨-, hrecorded⟩ := hclear.recorded
    ⟨⟨0, true⟩, by decide +kernel, rfl, .inl rfl⟩ ⟨by decide +kernel, rfl, rfl⟩
  obtain ⟨entry, outcome, hentry, houtcome, -⟩ := hrecorded (by decide +kernel)
  have hmissing : ((s.envelope.journal.get?
      (Envelope.keyOf plainHost (s.request 0))).bind JournalEntry.outcome).isNone := by
    decide +kernel
  rw [hentry, Option.bind_some, houtcome] at hmissing
  cases hmissing

end Bridge
end Sentinel
