import Sentinel.Brokers.Bridge
import Sentinel.Core.AuditVerify
import Sentinel.Support.Runs

/-!
# What passes the bridge

An order that opens or queues new exposure ought to reach the terminal only
within the envelope.  The server decides by the presence of a key and by one
action code, and compares a size that may be no number.
-/

namespace Sentinel
namespace Bridge

variable {F : Type} (py : Host F) (cfg : ServerConfig F)

/-! ## New exposure -/

/-- `TRADE_ACTION_PENDING`. -/
def actionPending : ℤ := 5

def OpensOrQueues (request : List (Text × Json F)) : Prop :=
  (Audit.equalsInt py.toPython (memberD request "action") cfg.module.actionDeal = true ∧
      Audit.truthy py.toPython (memberD request "position") = false) ∨
    Audit.equalsInt py.toPython (memberD request "action") actionPending = true

/-- `float(request.get("volume", 0))`. -/
def volumeOf (request : List (Text × Json F)) : Except Host.FloatError F :=
  py.toFloat ((member? request "volume").getD (.int 0))

/-- `str(request.get("symbol", ""))`. -/
def symbolOf (request : List (Text × Json F)) : Text :=
  py.strOf ((member? request "symbol").getD (.str []))

/-- The envelope. -/
structure Within (accountType : AccountType) (request : List (Text × Json F)) : Prop where
  account : accountType = .demo ∨ cfg.envelope.allowLive = true
  volume : ∃ lots q, volumeOf py request = .ok lots ∧ py.value lots = .finite q ∧ 0 < q ∧
    (FloatValue.finite q).le (py.value cfg.envelope.maxLots) = true
  stop : Audit.truthy py.toPython (memberD request "sl") = true
  symbol : ∀ symbols, cfg.envelope.symbols = some symbols → symbolOf py request ∈ symbols

def AccountAnswer.type : AccountAnswer → AccountType
  | .info _ _ mode => accountTypeOf mode
  | .raises _ => .unknown
  | .signedOut => .unknown

def OnBoundAccount (e : Envelope F) (account : AccountAnswer) : Prop :=
  ∃ login server mode, account = .info login server mode ∧ ∀ bound, e.accountId = some bound →
    login = bound ∧ (e.server.getD [] = [] ∨ server = [] ∨ server = e.server.getD [])

/-! ## Runs of the server -/

/-- A request, with what the terminal answers to it, or a restart on the journal
file. -/
inductive ServerMove (F : Type) where
  | request (account : AccountAnswer) (answer : TerminalAnswer F) (req : Json F)
  | restart

namespace Envelope

def step (e : Envelope F) : ServerMove F → Envelope F
  | .request account answer req => (Server.handle py cfg e account answer req).2
  | .restart => Envelope.start cfg.envelope e.journal

/-- The terminal's `order_send` is called for new exposure within the envelope
only, and for the bound account only. -/
structure Kept (e : Envelope F) (m : ServerMove F) : Prop where
  within : ∀ account answer req value request, m = .request account answer req →
    Server.sends py cfg e account req = some value → dict? value = some request →
    OpensOrQueues py cfg request → Within py cfg account.type request
  on_account : ∀ account answer req, m = .request account answer req →
    (Server.sends py cfg e account req).isSome → OnBoundAccount e account
  stays_bound : m ≠ .restart → ∀ bound, e.accountId = some bound →
    (e.step py cfg m).accountId = some bound ∧ (e.step py cfg m).server = e.server

structure Comparable (lots ceiling : FloatValue) : Prop where
  lots_number : lots ≠ .nan
  ceiling_number : ceiling ≠ .nan
  not_both : lots = .infinity → ceiling ≠ .infinity

def Asked (request : List (Text × Json F)) : Prop :=
  Envelope.opensPosition py cfg.module request = true ∧
    ∀ lots, volumeOf py request = .ok lots →
      Comparable (py.value lots) (py.value cfg.envelope.maxLots)

def JournalFree (e : Envelope F) (request : List (Text × Json F)) : Prop :=
  keyOf py request = [] ∨ e.journal.get? (keyOf py request) = none

structure Unstopped (e : Envelope F) (account : AccountAnswer) (request : List (Text × Json F)) :
    Prop where
  on_account : OnBoundAccount e account
  opening : opensPosition py cfg.module request = true →
    openingCheck py cfg.envelope account.type request = none
  journal : e.JournalFree py request

def Covers (e : Envelope F) : ServerMove F → Prop
  | .request account _ req => ∀ args kwargs value request,
      Server.parse py cfg req = .method orderSend args kwargs →
      requestOf py args kwargs = some value → dict? value = some request →
      (dict? kwargs).isSome → OpensOrQueues py cfg request → e.Unstopped py cfg account request →
      Within py cfg account.type request ∨ Asked py cfg request
  | .restart => True

end Envelope

/-! ## The checks one by one -/

namespace Envelope

variable {py cfg} {e : Envelope F}

theorem orderSend_bound : orderSend ∉ unboundMethods := by decide

theorem checkAccount_eq_none_iff {method : Text} (hmethod : method ∉ unboundMethods)
    (account : AccountAnswer) :
    (e.checkAccount method account).1 = none ↔ OnBoundAccount e account := by
  rw [checkAccount.eq_def, if_neg hmethod]
  cases account with
  | raises text => simp [OnBoundAccount]
  | signedOut => simp [OnBoundAccount]
  | info login server mode =>
      cases hbound : e.accountId with
      | none => simp [OnBoundAccount, hbound]
      | some bound =>
          by_cases hlogin : login = bound
          · simp only [hlogin, ne_eq, not_true_eq_false, if_false]
            split_ifs with hserver
            · simp only [OnBoundAccount, false_iff]
              rintro ⟨login', server', mode', hanswer, hall⟩
              obtain ⟨rfl, rfl, rfl⟩ := AccountAnswer.info.inj hanswer
              rcases (hall bound hbound).2 with h | h | h
              · exact hserver.1 h
              · exact hserver.2.1 h
              · exact hserver.2.2 h
            · simp only [OnBoundAccount, true_iff]
              refine ⟨bound, server, mode, rfl, ?_⟩
              rintro bound' hbound'
              obtain rfl := Option.some.inj (hbound.symm.trans hbound')
              refine ⟨rfl, ?_⟩
              by_contra hnone
              simp only [not_or] at hnone
              exact hserver ⟨hnone.1, hnone.2.1, hnone.2.2⟩
          · simp only [hlogin, ne_eq, not_false_eq_true, if_true, reduceCtorEq, OnBoundAccount,
              false_iff]
            rintro ⟨login', server', mode', hanswer, hall⟩
            obtain ⟨rfl, rfl, rfl⟩ := AccountAnswer.info.inj hanswer
            exact hlogin (hall bound hbound).1

theorem checkAccount_ne {method : Text} {account : AccountAnswer} {r : Refusal F}
    (h : (e.checkAccount method account).1 = some r) : r ≠ .volumeNotNumber := by
  rintro rfl
  rw [checkAccount.eq_def] at h
  split at h
  · cases h
  · split at h
    · cases h
    · cases h
    · simp only at h
      split at h
      · cases h
      · split_ifs at h <;> cases h

theorem checkAccount_keeps (e : Envelope F) (method : Text) (account : AccountAnswer) :
    (e.checkAccount method account).2.journal = e.journal ∧
      ∀ bound, e.accountId = some bound →
        (e.checkAccount method account).2.accountId = some bound ∧
        (e.checkAccount method account).2.server = e.server := by
  rw [checkAccount.eq_def]
  by_cases hmethod : method ∈ unboundMethods
  · simp [hmethod]
  · rw [if_neg hmethod]
    cases account with
    | raises text => simp
    | signedOut => simp
    | info login server mode =>
        cases hbound : e.accountId with
        | none => simp
        | some bound =>
            simp only [Option.some.injEq, forall_eq']
            split_ifs <;> simp

theorem accountType_checkAccount {method : Text} (hmethod : method ∉ unboundMethods)
    {account : AccountAnswer} (h : OnBoundAccount e account) :
    (e.checkAccount method account).2.accountType = account.type := by
  obtain ⟨login, server, mode, rfl, -⟩ := h
  rw [checkAccount.eq_def, if_neg hmethod]
  cases e.accountId with
  | none => rfl
  | some bound =>
      simp only
      split_ifs <;> rfl

variable {accountType : AccountType} {request : List (Text × Json F)}

theorem openingCheck_eq_none_iff :
    openingCheck py cfg.envelope accountType request = none ↔
      (accountType = .demo ∨ accountType = .live ∧ cfg.envelope.allowLive = true) ∧
      (∃ lots, volumeOf py request = .ok lots ∧ (py.value lots).le (.finite 0) = false ∧
        (py.value cfg.envelope.maxLots).lt (py.value lots) = false) ∧
      Audit.truthy py.toPython (memberD request "sl") = true ∧
      ∀ symbols, cfg.envelope.symbols = some symbols → symbolOf py request ∈ symbols := by
  rw [openingCheck, volumeOf, symbolOf]
  by_cases hlive : accountType = .live ∧ cfg.envelope.allowLive = false
  · simp [hlive.1, hlive.2]
  · rw [if_neg hlive]
    by_cases hunknown : accountType = .unknown
    · simp [hunknown]
    · rw [if_neg hunknown]
      have htype : accountType = .demo ∨ accountType = .live ∧ cfg.envelope.allowLive = true := by
        cases accountType with
        | demo => exact .inl rfl
        | live => exact .inr ⟨rfl, by simpa using hlive⟩
        | unknown => exact absurd rfl hunknown
      simp only [htype, true_and]
      cases py.toFloat ((member? request "volume").getD (.int 0)) with
      | error err => cases err <;> simp
      | ok lots =>
          simp only [Except.ok.injEq, exists_eq_left']
          cases hle : (py.value lots).le (.finite 0) <;>
            cases hlt : (py.value cfg.envelope.maxLots).lt (py.value lots) <;>
            cases hstop : Audit.truthy py.toPython (memberD request "sl") <;> simp

theorem inRange_iff_comparable {lots ceiling : FloatValue} (hpos : lots.le (.finite 0) = false)
    (hmax : ceiling.lt lots = false) :
    (∃ q, lots = .finite q ∧ 0 < q ∧ (FloatValue.finite q).le ceiling = true) ↔
      Comparable lots ceiling := by
  constructor
  · rintro ⟨q, rfl, -, hle⟩
    refine ⟨by simp, ?_, by simp⟩
    rintro rfl
    simp [FloatValue.le] at hle
  · rintro ⟨hlots, hceiling, hboth⟩
    cases lots with
    | nan => exact absurd rfl hlots
    | infinity => cases ceiling <;> simp_all [FloatValue.lt]
    | negInfinity => simp [FloatValue.le] at hpos
    | finite q =>
        refine ⟨q, rfl, by simpa [FloatValue.le] using hpos, ?_⟩
        cases ceiling <;> simp_all [FloatValue.lt, FloatValue.le]

theorem within_iff_comparable (h : openingCheck py cfg.envelope accountType request = none) :
    Within py cfg accountType request ↔ ∀ lots, volumeOf py request = .ok lots →
      Comparable (py.value lots) (py.value cfg.envelope.maxLots) := by
  obtain ⟨htype, ⟨lots, hlots, hpos, hmax⟩, hstop, hsymbol⟩ := openingCheck_eq_none_iff.1 h
  have hrange := inRange_iff_comparable hpos hmax
  constructor
  · intro hwithin lots' hlots'
    obtain rfl := Except.ok.inj (hlots.symm.trans hlots')
    obtain ⟨lots', q, hlots', hq, hqpos, hqmax⟩ := hwithin.volume
    obtain rfl := Except.ok.inj (hlots.symm.trans hlots')
    exact hrange.1 ⟨q, hq, hqpos, hqmax⟩
  · intro hcomparable
    obtain ⟨q, hq, hqpos, hqmax⟩ := hrange.2 (hcomparable lots hlots)
    refine ⟨?_, ⟨lots, q, hlots, hq, hqpos, hqmax⟩, hstop, hsymbol⟩
    exact htype.imp id And.right

theorem journalCheck_forward_iff :
    (∃ key, (e.journalCheck py request).1 = .forward key) ↔ e.JournalFree py request := by
  rw [journalCheck, JournalFree]
  by_cases hkey : keyOf py request = []
  · simp [hkey]
  · simp only [hkey, if_false, false_or]
    cases e.journal.get? (keyOf py request) with
    | none => simp
    | some prior =>
        by_cases hhash : prior.hash = py.digest (.obj request)
        · simp only [ne_eq, hhash, not_true_eq_false, if_false, reduceCtorEq, iff_false]
          cases prior.outcome with
          | none => simp
          | some outcome => cases outcome <;> simp
        · simp [hhash]

theorem openingCheck_ne_forward
    {check : OrderCheck F} (h : openingCheck py cfg.envelope accountType request = some check)
    (key : Option Text) : check ≠ .forward key := by
  rintro rfl
  rw [openingCheck] at h
  split at h
  · cases h
  · split at h
    · cases h
    · split at h
      · cases h
      · cases h
      · simp only at h
        split_ifs at h <;> cases h

theorem checkOrder_forward_iff {args kwargs : Json F} :
    (∃ key, (e.checkOrder py cfg.envelope cfg.module args kwargs).1 = .forward key) ↔
      ∃ value request, requestOf py args kwargs = some value ∧ dict? value = some request ∧
        (opensPosition py cfg.module request = true →
          openingCheck py cfg.envelope e.accountType request = none) ∧
        e.JournalFree py request := by
  rw [checkOrder]
  cases hvalue : requestOf py args kwargs with
  | none => simp
  | some value =>
      cases hrequest : dict? value with
      | none => simp [hrequest]
      | some request =>
          simp only [Option.some.injEq, hrequest, exists_and_left, exists_eq_left',
            ← journalCheck_forward_iff]
          by_cases hopens : opensPosition py cfg.module request = true
          · simp only [hopens, if_true, forall_const]
            cases hcheck : openingCheck py cfg.envelope e.accountType request with
            | none => simp
            | some check =>
                simp only [reduceCtorEq, false_and, iff_false, not_exists]
                exact openingCheck_ne_forward hcheck
          · simp [hopens]

end Envelope

/-! ## Which requests reach the terminal -/

namespace Server

variable {py cfg} {e : Envelope F}

theorem route_call_iff {account : AccountAnswer} {name : Text} {args kwargs : Json F}
    {method : Text} {args' kwargs' : Json F} {key : Option Text} :
    (route py cfg e account name args kwargs).1 = .call method args' kwargs' key ↔
      (name = method ∧ args = args' ∧ kwargs = kwargs') ∧ (dict? kwargs).isSome ∧
        (e.checkAccount name account).1 = none ∧
        if name = orderSend then
          ((e.checkAccount name account).2.checkOrder py cfg.envelope cfg.module args kwargs).1 =
            .forward key
        else key = none := by
  rw [route]
  rcases e.checkAccount name account with ⟨refusal, read⟩
  cases refusal with
  | some r => simp
  | none =>
      by_cases hname : name = orderSend
      · simp only [hname, if_true]
        rcases read.checkOrder py cfg.envelope cfg.module args kwargs with ⟨check, after⟩
        cases check with
        | refuse r => simp
        | replay outcome => simp
        | raises => simp
        | forward key' =>
            simp only [calling]
            split_ifs with hkwargs
            · simp [hkwargs, and_assoc]
            · simp [hkwargs]
      · simp only [hname, if_false, calling]
        split_ifs with hkwargs
        · simp [hkwargs, and_assoc, eq_comm]
        · simp [hkwargs]

theorem sends_eq_some_iff {account : AccountAnswer} {req value : Json F} :
    sends py cfg e account req = some value ↔
      ∃ args kwargs request, parse py cfg req = .method orderSend args kwargs ∧
        Envelope.requestOf py args kwargs = some value ∧ dict? value = some request ∧
        OnBoundAccount e account ∧
        (Envelope.opensPosition py cfg.module request = true →
          Envelope.openingCheck py cfg.envelope account.type request = none) ∧
        e.JournalFree py request ∧ (dict? kwargs).isSome := by
  have hcall : sends py cfg e account req = some value ↔ ∃ args kwargs key,
      (screen py cfg e account req).1 = .call orderSend args kwargs key ∧
        Envelope.requestOf py args kwargs = some value := by
    rw [sends]
    rcases screen py cfg e account req with ⟨admission, after⟩
    cases admission with
    | reply r => simp
    | raises => simp
    | miscall kwargs key => simp
    | call method args kwargs key =>
        by_cases hmethod : method = orderSend
        · simp [hmethod]
        · simp [hmethod]
  rw [hcall, screen]
  cases hparse : parse py cfg req with
  | answered r => cases r <;> simp
  | method name args kwargs =>
      simp only [Parsed.method.injEq, route_call_iff]
      constructor
      · rintro ⟨args', kwargs', key, ⟨⟨rfl, rfl, rfl⟩, hkwargs, haccount, horder⟩, hvalue⟩
        rw [if_pos rfl] at horder
        have hbound :=
          (Envelope.checkAccount_eq_none_iff Envelope.orderSend_bound account).1 haccount
        obtain ⟨value', request, hvalue', hrequest, hopening, hjournal⟩ :=
          Envelope.checkOrder_forward_iff.1 ⟨key, horder⟩
        obtain rfl := Option.some.inj (hvalue.symm.trans hvalue')
        rw [Envelope.accountType_checkAccount Envelope.orderSend_bound hbound] at hopening
        rw [Envelope.JournalFree, (e.checkAccount_keeps orderSend account).1] at hjournal
        exact ⟨args, kwargs, request, ⟨rfl, rfl, rfl⟩, hvalue, hrequest, hbound, hopening,
          hjournal, hkwargs⟩
      · rintro ⟨args', kwargs', request, ⟨rfl, rfl, rfl⟩, hvalue, hrequest, hbound, hopening,
          hjournal, hkwargs⟩
        have haccount :=
          (Envelope.checkAccount_eq_none_iff Envelope.orderSend_bound account).2 hbound
        rw [← Envelope.accountType_checkAccount Envelope.orderSend_bound hbound] at hopening
        rw [Envelope.JournalFree, ← (e.checkAccount_keeps orderSend account).1] at hjournal
        obtain ⟨key, hkey⟩ :=
          Envelope.checkOrder_forward_iff.2 ⟨value, request, hvalue, hrequest, hopening, hjournal⟩
        exact ⟨args, kwargs, key, ⟨⟨rfl, rfl, rfl⟩, hkwargs, haccount, by rwa [if_pos rfl]⟩,
          hvalue⟩

end Server

/-! ## One request and whole runs -/

namespace Envelope

variable {py cfg} {e : Envelope F} (e : Envelope F)

variable (py cfg) in
theorem binding_checkOrder (args kwargs : Json F) :
    (e.checkOrder py cfg.envelope cfg.module args kwargs).2.accountId = e.accountId ∧
      (e.checkOrder py cfg.envelope cfg.module args kwargs).2.server = e.server := by
  rw [checkOrder]
  cases requestOf py args kwargs with
  | none => simp
  | some value =>
      simp only
      cases dict? value with
      | none => simp
      | some request =>
          simp only
          cases (if opensPosition py cfg.module request then
              openingCheck py cfg.envelope e.accountType request else none) with
          | some check => simp
          | none =>
              simp only [journalCheck]
              split_ifs
              · simp
              · cases e.journal.get? (keyOf py request) with
                | none => simp
                | some prior =>
                    simp only
                    split_ifs
                    · simp
                    · cases prior.outcome with
                      | none => simp
                      | some outcome => cases outcome <;> simp

theorem binding_finish (key : Option Text) (answer : TerminalAnswer F) :
    (Server.finish e key answer).2.accountId = e.accountId ∧
      (Server.finish e key answer).2.server = e.server := by
  cases key <;> cases answer <;> exact ⟨rfl, rfl⟩

variable (py cfg) in
theorem binding_handle (account : AccountAnswer) (answer : TerminalAnswer F)
    (req : Json F) : ∃ read, (read = e ∨ ∃ name, read = (e.checkAccount name account).2) ∧
      (Server.handle py cfg e account answer req).2.accountId = read.accountId ∧
      (Server.handle py cfg e account answer req).2.server = read.server := by
  have hscreen : ∃ read, (read = e ∨ ∃ name, read = (e.checkAccount name account).2) ∧
      (Server.screen py cfg e account req).2.accountId = read.accountId ∧
      (Server.screen py cfg e account req).2.server = read.server := by
    rw [Server.screen]
    cases Server.parse py cfg req with
    | answered r => cases r <;> exact ⟨e, .inl rfl, rfl, rfl⟩
    | method name args kwargs =>
        refine ⟨(e.checkAccount name account).2, .inr ⟨name, rfl⟩, ?_⟩
        simp only [Server.route]
        rcases e.checkAccount name account with ⟨refusal, read⟩
        cases refusal with
        | some r => exact ⟨rfl, rfl⟩
        | none =>
            simp only
            split_ifs
            · have horder := read.binding_checkOrder py cfg args kwargs
              rcases horder' : read.checkOrder py cfg.envelope cfg.module args kwargs with
                ⟨check, after⟩
              rw [horder'] at horder
              cases check <;> exact horder
            · exact ⟨rfl, rfl⟩
  obtain ⟨read, hread, hid, hserver⟩ := hscreen
  refine ⟨read, hread, ?_⟩
  rw [Server.handle]
  rcases hadmitted : Server.screen py cfg e account req with ⟨admission, after⟩
  rw [hadmitted] at hid hserver
  cases admission with
  | reply r => exact ⟨hid, hserver⟩
  | raises => exact ⟨hid, hserver⟩
  | call method args kwargs key =>
      exact ⟨(after.binding_finish key answer).1.trans hid,
        (after.binding_finish key answer).2.trans hserver⟩
  | miscall kwargs key =>
      exact ⟨(after.binding_finish key _).1.trans hid,
        (after.binding_finish key _).2.trans hserver⟩

theorem bound_handle (account : AccountAnswer) (answer : TerminalAnswer F)
    (req : Json F) {bound : Text} (h : e.accountId = some bound) :
    (Server.handle py cfg e account answer req).2.accountId = some bound ∧
      (Server.handle py cfg e account answer req).2.server = e.server := by
  obtain ⟨read, hread, hid, hserver⟩ :=
    e.binding_handle py cfg account answer req
  rw [hid, hserver]
  rcases hread with rfl | ⟨name, rfl⟩
  · exact ⟨h, rfl⟩
  · exact (e.checkAccount_keeps name account).2 bound h

theorem kept_iff_covers (m : ServerMove F) : e.Kept py cfg m ↔ e.Covers py cfg m := by
  constructor
  · intro h
    cases m with
    | restart => trivial
    | request account answer req =>
        intro args kwargs value request hparse hvalue hrequest hkwargs hopens hunstopped
        apply Or.inl
        apply h.within account answer req value request rfl ?_ hrequest hopens
        exact Server.sends_eq_some_iff.2 ⟨args, kwargs, request, hparse, hvalue, hrequest,
          hunstopped.on_account, hunstopped.opening, hunstopped.journal, hkwargs⟩
  · intro h
    constructor
    · rintro account answer req value request rfl hsends hrequest hopens
      obtain ⟨args, kwargs, request', hparse, hvalue, hrequest', hbound, hopening, hjournal,
        hkwargs⟩ := Server.sends_eq_some_iff.1 hsends
      obtain rfl := Option.some.inj (hrequest.symm.trans hrequest')
      rcases h args kwargs value request hparse hvalue hrequest hkwargs hopens
        ⟨hbound, hopening, hjournal⟩ with hwithin | ⟨hasked, hcomparable⟩
      · exact hwithin
      · exact (within_iff_comparable (hopening hasked)).2 hcomparable
    · rintro account answer req rfl hsends
      obtain ⟨value, hvalue⟩ := Option.isSome_iff_exists.1 hsends
      obtain ⟨-, -, -, -, -, -, hbound, -⟩ := Server.sends_eq_some_iff.1 hvalue
      exact hbound
    · intro hm bound hbound
      cases m with
      | restart => exact absurd rfl hm
      | request account answer req => exact bound_handle e account answer req hbound

/-- In runs of any length, the terminal is called for new exposure within the
envelope only, exactly when the envelope covers every request. -/
theorem envelopeKept_run_iff (ms : List (ServerMove F)) :
    Along (Envelope.step py cfg) (Kept py cfg) e ms ↔
      Along (Envelope.step py cfg) (Covers py cfg) e ms := by
  apply Along.iff_of_kept (I := fun _ => True)
  · exact fun _ _ _ _ => trivial
  · exact fun e m _ => e.kept_iff_covers m
  · trivial

end Envelope

/-! ## A position that is none -/

def plainHost : Host FloatText where
  toPython := Audit.hexPython
  floatOfText _ := none
  reprText s := Text.ofString "'" ++ s ++ Text.ofString "'"
  isoStamp _ := false
  digest request := request.sortKeys.render Audit.hexPython.toFloatOps
  mappingError _ := Text.ofString "TypeError: argument after ** must be a mapping"

attribute [local instance] neZero_ten in
def plainServer : ServerConfig FloatText where
  token := Text.ofString "0123456789abcdef"
  envelope := { maxLots := .finite ⟨false, 0, [5], none, .inl (List.cons_ne_nil _ _)⟩ }
  module := { actionDeal := 1, has := fun _ => true, constants := .obj [] }

def noPosition : List (Text × Json FloatText) :=
  [(Text.ofString "action", .int 1), (Text.ofString "symbol", .str (Text.ofString "EURUSD")),
    (Text.ofString "volume", .int 100), (Text.ofString "position", .int 0)]

/-- A deal for the position 0 reaches a live account, which the bridge was not
started for. -/
theorem not_envelopeKept_noPosition :
    ¬Along (Envelope.step plainHost plainServer) (Envelope.Kept plainHost plainServer)
      (Envelope.start plainServer.envelope Dict.empty)
      [.request (.info (Text.ofString "1001") (Text.ofString "Live") (some 2)) (.returns .null)
        (orderLine plainServer.token 1 noPosition)] := by
  intro h
  have hopens : OpensOrQueues plainHost plainServer noPosition := by
    apply Or.inl
    exact ⟨by decide +kernel, by decide +kernel⟩
  have hwithin := h.1.within _ _ _ (.obj noPosition) noPosition rfl (by rfl) (by rfl) hopens
  rcases hwithin.account with hdemo | hlive
  · exact absurd hdemo (by decide)
  · exact absurd hlive (by decide)

end Bridge
end Sentinel
