import Sentinel.Brokers.BridgeCalls
import Sentinel.Brokers.MetaTrader

/-!
# Closing positions over the bridge

A close carries its reason as its comment, and the journal keeps what was sent
under a comment until an operator clears it.  A stop change carries none.
-/

namespace Sentinel
namespace Bridge

open MetaTrader (Ticket retcodeDone)

variable {F : Type}

/-! ## What the adapter sends -/

structure MT5Orders (F : Type) where
  actionSltp : ℤ := 6
  orderTypeBuy : ℤ := 0
  orderTypeSell : ℤ := 1
  deviation : ℤ
  magic : ℤ
  floatOf : Dec → F
  venue : String → Text
  fillingFor : String → ℤ

structure BoundBridge (F : Type) extends LinkConfig F where
  orders : MT5Orders F
  account : AccountAnswer
  on_account : OnBoundAccount (Envelope.start server.envelope Dict.empty) account

/-- `f"close:{reason}"[:31]`. -/
def closeKey (reason : Text) : Text := (Text.ofString "close:" ++ reason).take 31

namespace BoundBridge

variable (py : Host F) (b : BoundBridge F)

variable (instrument : String) (lots : Option Dec) (reason : Text) (t : Ticket)

/-- A request of `close_position`. -/
def closeRequest (tick : Quote) : List (Text × Json F) :=
  let volume := ((lots.filter fun l => l ≠ 0).map (min · t.volume)).getD t.volume
  [(Text.ofString "action", .int b.server.module.actionDeal),
    (Text.ofString "symbol", .str (b.orders.venue instrument)),
    (Text.ofString "volume", .float (b.orders.floatOf volume)),
    (Text.ofString "type",
      .int (if t.side = .buy then b.orders.orderTypeSell else b.orders.orderTypeBuy)),
    (Text.ofString "position", .int t.ticket),
    (Text.ofString "price", .float (b.orders.floatOf (tick.priceFor t.side.opposite))),
    (Text.ofString "deviation", .int b.orders.deviation),
    (Text.ofString "magic", .int b.orders.magic),
    (Text.ofString "comment", .str (closeKey reason)),
    (Text.ofString "type_filling", .int (b.orders.fillingFor instrument))]

variable (stopLoss takeProfit : Option Dec) (t : Ticket)

/-- A request of `modify_position`. -/
def stopRequest : List (Text × Json F) :=
  [(Text.ofString "action", .int b.orders.actionSltp),
    (Text.ofString "symbol", .str (b.orders.venue instrument)),
    (Text.ofString "position", .int t.ticket),
    (Text.ofString "sl", .float (b.orders.floatOf (stopLoss.getD t.sl))),
    (Text.ofString "tp", .float (b.orders.floatOf (takeProfit.getD t.tp)))]

structure Sending (F : Type) where
  seq : ℤ
  answer : TerminalAnswer F

structure Issue (F : Type) where
  request : List (Text × Json F)
  calls : ℕ

variable (e : Envelope F)

/-- `order_send` over a connection that holds. -/
def issue (request : List (Text × Json F)) (x : Sending F) : Issue F × CallEnd F × Envelope F :=
  let line := orderLine b.server.token x.seq request
  let (reply, after) := Server.handle py b.server e b.account x.answer line
  let calls := if (Server.sends py b.server e b.account line).isSome then 1 else 0
  (⟨request, calls⟩, (reply.map endOf).getD (.failed []), after)

/-- `res is not None and res.retcode == TRADE_RETCODE_DONE`. -/
def isDone : CallEnd F → Bool
  | .result (.obj members) => Audit.equalsInt py.toPython (memberD members "retcode") retcodeDone
  | _ => false

structure CloseRound (F : Type) where
  ticket : Ticket
  tick : Option Quote
  sending : Sending F

/-- The loop of `close_position`: it ends without a quote, on an error, or on a
close that is not done. -/
def closeRounds (instrument : String) (lots : Option Dec) (reason : Text) :
    List (CloseRound F) → Envelope F → List (Issue F) × Envelope F
  | [], e => ([], e)
  | r :: rs, e =>
      match r.tick with
      | none => ([], e)
      | some tick =>
          match b.issue py e (b.closeRequest instrument lots reason r.ticket tick) r.sending with
          | (i, ended, after) =>
              if isDone py ended then
                let (issues, e') := closeRounds instrument lots reason rs after
                (i :: issues, e')
              else ([i], after)

/-- The loop of `modify_position`: it ends on an error. -/
def stopRounds (instrument : String) (stopLoss takeProfit : Option Dec) :
    List (Ticket × Sending F) → Envelope F → List (Issue F) × Envelope F
  | [], e => ([], e)
  | (t, x) :: rs, e =>
      match b.issue py e (b.stopRequest instrument stopLoss takeProfit t) x with
      | (i, .result _, after) =>
          let (issues, e') := stopRounds instrument stopLoss takeProfit rs after
          (i :: issues, e')
      | (i, _, after) => ([i], after)

/-! ## Runs -/

/-- Any order, a close and a stop change over the tickets of a symbol, a restart
of the server on its journal, and an operator who clears an id. -/
inductive BookMove (F : Type) where
  | order (request : List (Text × Json F)) (x : Sending F)
  | close (instrument : String) (lots : Option Dec) (reason : Text) (rounds : List (CloseRound F))
  | modify (instrument : String) (stopLoss takeProfit : Option Dec)
      (rounds : List (Ticket × Sending F))
  | restart
  | clear (key : Text)

def play : BookMove F → List (Issue F) × Envelope F
  | .order request x => ([], (b.issue py e request x).2.2)
  | .close instrument lots reason rounds => b.closeRounds py instrument lots reason rounds e
  | .modify instrument stopLoss takeProfit rounds =>
      b.stopRounds py instrument stopLoss takeProfit rounds e
  | .restart => ([], Envelope.start b.server.envelope e.journal)
  | .clear key => ([], { e with journal := e.journal.erase key })

def step (m : BookMove F) : Envelope F := (b.play py e m).2

/-- Every close and every stop change reaches the terminal exactly once. -/
def Kept (m : BookMove F) : Prop := ∀ i ∈ (b.play py e m).1, i.calls = 1

def Fresh : BookMove F → Prop
  | .close _ _ reason (r :: rs) => r.tick.isSome →
      e.journal.get? (closeKey reason) = none ∧
        (isDone py (endOf (Link.answerReply r.sending.answer)) = true →
          ∀ r' ∈ rs.head?, r'.tick = none)
  | _ => True

/-! ## One request -/

variable {py b} {e : Envelope F}

theorem onBoundAccount_congr {e' : Envelope F} (hid : e'.accountId = e.accountId)
    (hserver : e'.server = e.server) {account : AccountAnswer} :
    OnBoundAccount e' account ↔ OnBoundAccount e account := by
  rw [OnBoundAccount, OnBoundAccount, hid, hserver]

theorem onBoundAccount_checkAccount {account : AccountAnswer} (h : OnBoundAccount e account)
    (name : Text) : OnBoundAccount (e.checkAccount name account).2 account := by
  cases hbound : e.accountId with
  | some bound =>
      obtain ⟨hid, hserver⟩ := (e.checkAccount_keeps name account).2 bound hbound
      exact (onBoundAccount_congr (hid.trans hbound.symm) hserver).2 h
  | none =>
      by_cases hname : name ∈ Envelope.unboundMethods
      · rw [Envelope.checkAccount.eq_def, if_pos hname]
        exact h
      · obtain ⟨login, server, mode, rfl, -⟩ := h
        rw [Envelope.checkAccount.eq_def, if_neg hname, hbound]
        refine ⟨login, server, mode, rfl, ?_⟩
        rintro bound hlogin
        exact ⟨Option.some.inj hlogin, .inr (.inr rfl)⟩

theorem onBoundAccount_handle {account : AccountAnswer} (h : OnBoundAccount e account)
    (cfg : ServerConfig F) (answer : TerminalAnswer F) (req : Json F) :
    OnBoundAccount (Server.handle py cfg e account answer req).2 account := by
  obtain ⟨read, hread, hid, hserver⟩ :=
    e.binding_handle py cfg account answer req
  rw [onBoundAccount_congr hid hserver]
  rcases hread with rfl | ⟨name, rfl⟩
  · exact h
  · exact onBoundAccount_checkAccount h name

variable (py) in
theorem calls_issue_iff (hbound : OnBoundAccount e b.account) {request : List (Text × Json F)}
    (hsend : Link.Sendable py request)
    (hopens : Envelope.opensPosition py b.server.module request = false) (x : Sending F) :
    (b.issue py e request x).1.calls = 1 ↔ e.JournalFree py request := by
  have hsends := isSome_sends_iff py b.toLinkConfig e b.account request x.seq
  rw [issue]
  simp only [ite_eq_left_iff, zero_ne_one, imp_false, not_not, hsends]
  constructor
  · exact fun h => h.2.journal
  · intro hfree
    refine ⟨hsend, hbound, ?_, hfree⟩
    intro hopens'
    rw [hopens] at hopens'
    cases hopens'

theorem unstopped_of_free (hbound : OnBoundAccount e b.account)
    {request : List (Text × Json F)}
    (hopens : Envelope.opensPosition py b.server.module request = false)
    (hfree : e.JournalFree py request) : e.Unstopped py b.server b.account request := by
  refine ⟨hbound, ?_, hfree⟩
  intro hopens'
  rw [hopens] at hopens'
  cases hopens'

theorem ended_issue {request : List (Text × Json F)} (hsend : Link.Sendable py request)
    (hun : e.Unstopped py b.server b.account request) (x : Sending F) :
    (b.issue py e request x).2.1 = endOf (Link.answerReply x.answer) := by
  have hreply := handle_of_unstopped b.toLinkConfig hsend hun x.answer x.seq
  simp only [issue, hreply, Option.map_some, Option.getD_some]

theorem journal_issue {request : List (Text × Json F)} (hsend : Link.Sendable py request)
    (hun : e.Unstopped py b.server b.account request) (hkey : Envelope.keyOf py request ≠ [])
    (x : Sending F) :
    (b.issue py e request x).2.2.journal.get? (Envelope.keyOf py request) ≠ none := by
  obtain ⟨entry, hentry, -⟩ := e.keepsJournal_handled py b.server b.account
    x.answer (orderLine b.server.token x.seq request) _ _
    (journal_screen b.toLinkConfig hsend hun hkey x.seq)
  simp only [issue, hentry, ne_eq, reduceCtorEq, not_false_eq_true]

variable (py) in
theorem onBoundAccount_issue (hbound : OnBoundAccount e b.account)
    (request : List (Text × Json F)) (x : Sending F) :
    OnBoundAccount (b.issue py e request x).2.2 b.account :=
  onBoundAccount_handle hbound b.server x.answer _

/-! ## Closes and stop changes -/

variable (py b) in
theorem sendable_close
    (tick : Quote) : Link.Sendable py (b.closeRequest instrument lots reason t tick) := ⟨rfl, rfl⟩

variable (py b) in
theorem opensPosition_close (tick : Quote) :
    Envelope.opensPosition py b.server.module
      (b.closeRequest instrument lots reason t tick) = false := by
  have hposition : member? (b.closeRequest instrument lots reason t tick) "position" =
      some (.int t.ticket) := rfl
  rw [Envelope.opensPosition, hposition]
  simp

variable (py b) in
theorem keyOf_close (tick : Quote) :
    Envelope.keyOf py (b.closeRequest instrument lots reason t tick) = closeKey reason :=
  py.strOf_str (closeKey reason)

theorem closeKey_ne_nil (reason : Text) : closeKey reason ≠ [] := by
  intro h
  have hlength := congrArg List.length h
  rw [closeKey, List.length_take, List.length_append] at hlength
  simp [Text.ofString, Text.ofChars] at hlength

variable (py b) in
theorem journalFree_close
    (tick : Quote) : e.JournalFree py (b.closeRequest instrument lots reason t tick) ↔
      e.journal.get? (closeKey reason) = none := by
  rw [Envelope.JournalFree, keyOf_close]
  exact or_iff_right (closeKey_ne_nil reason)

theorem closeRounds_cons {instrument : String} {lots : Option Dec} {reason : Text}
    {r : CloseRound F} {tick : Quote} (htick : r.tick = some tick) (rs : List (CloseRound F)) :
    let sent := b.issue py e (b.closeRequest instrument lots reason r.ticket tick) r.sending
    (b.closeRounds py instrument lots reason (r :: rs) e).1 =
      sent.1 :: if isDone py sent.2.1 then
        (b.closeRounds py instrument lots reason rs sent.2.2).1 else [] := by
  simp only [closeRounds, htick]
  split_ifs <;> rfl

theorem mem_closeRounds_head {instrument : String} {lots : Option Dec} {reason : Text}
    {r : CloseRound F} {tick : Quote} (htick : r.tick = some tick) (rs : List (CloseRound F)) :
    (b.issue py e (b.closeRequest instrument lots reason r.ticket tick) r.sending).1 ∈
      (b.closeRounds py instrument lots reason (r :: rs) e).1 := by
  rw [closeRounds_cons htick]
  exact List.mem_cons_self

theorem closeRounds_of_no_tick {instrument : String} {lots : Option Dec} {reason : Text}
    {rs : List (CloseRound F)} (h : ∀ r ∈ rs.head?, r.tick = none) :
    (b.closeRounds py instrument lots reason rs e).1 = [] := by
  cases rs with
  | nil => rfl
  | cons r rs =>
      rw [closeRounds.eq_def]
      simp only [h r (by simp)]

theorem close_kept_iff (hbound : OnBoundAccount e b.account) (instrument : String)
    (lots : Option Dec) (reason : Text) (rounds : List (CloseRound F)) :
    b.Kept py e (.close instrument lots reason rounds) ↔
      Fresh py e (.close instrument lots reason rounds) := by
  cases rounds with
  | nil =>
      rw [Kept, Fresh.eq_def]
      simp [play, closeRounds]
  | cons r rs =>
      simp only [Kept, Fresh, play]
      cases htick : r.tick with
      | none => simp [closeRounds, htick]
      | some tick =>
          let request := b.closeRequest instrument lots reason r.ticket tick
          have hsend := sendable_close py b instrument lots reason r.ticket tick
          have hopens :=
            opensPosition_close py b instrument lots reason r.ticket tick
          simp only [Option.isSome_some, forall_const]
          rw [← journalFree_close py b instrument lots reason r.ticket tick]
          constructor
          · intro h
            have hfree := (calls_issue_iff py hbound hsend hopens r.sending).1
              (h _ (mem_closeRounds_head htick rs))
            refine ⟨hfree, ?_⟩
            intro hdone r' hr'
            have hun := unstopped_of_free hbound hopens hfree
            rw [← ended_issue hsend hun r.sending] at hdone
            -- the second request finds the entry of the first
            by_contra hsome
            obtain ⟨tick', htick'⟩ := Option.ne_none_iff_exists'.1 hsome
            obtain ⟨rs', rfl⟩ : ∃ rs', rs = r' :: rs' := by
              cases rs with
              | nil => cases hr'
              | cons r'' rs' =>
                  obtain rfl := Option.some.inj hr'
                  exact ⟨rs', rfl⟩
            have hsecond := (calls_issue_iff py
              (onBoundAccount_issue py hbound request r.sending)
              (sendable_close py b instrument lots reason r'.ticket tick')
              (opensPosition_close py b instrument lots reason r'.ticket tick') r'.sending).1 (by
                apply h
                rw [closeRounds_cons htick, if_pos hdone]
                exact List.mem_cons_of_mem _ (mem_closeRounds_head htick' rs'))
            have hkey := keyOf_close py b instrument lots reason r.ticket tick
            have hentry := journal_issue hsend hun (by
              rw [hkey]
              exact closeKey_ne_nil reason) r.sending
            rw [hkey] at hentry
            exact hentry ((journalFree_close py b instrument lots reason r'.ticket tick').1 hsecond)
          · rintro ⟨hfree, hlast⟩ i hi
            have hun := unstopped_of_free hbound hopens hfree
            rw [closeRounds_cons htick, List.mem_cons, ended_issue hsend hun r.sending] at hi
            rcases hi with rfl | hi
            · exact (calls_issue_iff py hbound hsend hopens r.sending).2 hfree
            · split_ifs at hi with hdone
              · rw [closeRounds_of_no_tick (hlast hdone)] at hi
                cases hi
              · cases hi

theorem sendable_stop :
    Link.Sendable py (b.stopRequest instrument stopLoss takeProfit t) := ⟨rfl, rfl⟩

theorem opensPosition_stop :
    Envelope.opensPosition py b.server.module
      (b.stopRequest instrument stopLoss takeProfit t) = false := by
  have hposition : member? (b.stopRequest instrument stopLoss takeProfit t) "position" =
      some (.int t.ticket) := rfl
  rw [Envelope.opensPosition, hposition]
  simp

theorem keyOf_stop : Envelope.keyOf py (b.stopRequest instrument stopLoss takeProfit t) = [] := rfl

theorem stopRounds_kept (hbound : OnBoundAccount e b.account) (instrument : String)
    (stopLoss takeProfit : Option Dec) (rounds : List (Ticket × Sending F)) :
    ∀ i ∈ (b.stopRounds py instrument stopLoss takeProfit rounds e).1, i.calls = 1 := by
  induction rounds generalizing e with
  | nil => simp [stopRounds]
  | cons r rs ih =>
      obtain ⟨t, x⟩ := r
      have hcalls := (calls_issue_iff py hbound (sendable_stop instrument stopLoss takeProfit t)
        (opensPosition_stop instrument stopLoss takeProfit t) x).2
        (.inl (keyOf_stop instrument stopLoss takeProfit t))
      have hafter := onBoundAccount_issue py hbound
        (b.stopRequest instrument stopLoss takeProfit t) x
      simp only [stopRounds]
      rcases hissue : b.issue py e (b.stopRequest instrument stopLoss takeProfit t) x with
        ⟨i, ended, after⟩
      rw [hissue] at hcalls hafter
      cases ended with
      | result result =>
          intro i' hi'
          rw [List.mem_cons] at hi'
          rcases hi' with rfl | hi'
          · exact hcalls
          · exact ih hafter i' hi'
      | refused text => simpa using hcalls
      | failed text => simpa using hcalls

theorem onBoundAccount_closeRounds (hbound : OnBoundAccount e b.account) (instrument : String)
    (lots : Option Dec) (reason : Text) (rounds : List (CloseRound F)) :
    OnBoundAccount (b.closeRounds py instrument lots reason rounds e).2 b.account := by
  induction rounds generalizing e with
  | nil => exact hbound
  | cons r rs ih =>
      cases htick : r.tick with
      | none =>
          simp only [closeRounds, htick]
          exact hbound
      | some tick =>
          have hafter := onBoundAccount_issue py hbound
            (b.closeRequest instrument lots reason r.ticket tick) r.sending
          simp only [closeRounds, htick]
          split_ifs
          · exact ih hafter
          · exact hafter

theorem onBoundAccount_stopRounds (hbound : OnBoundAccount e b.account) (instrument : String)
    (stopLoss takeProfit : Option Dec) (rounds : List (Ticket × Sending F)) :
    OnBoundAccount (b.stopRounds py instrument stopLoss takeProfit rounds e).2 b.account := by
  induction rounds generalizing e with
  | nil => exact hbound
  | cons r rs ih =>
      obtain ⟨t, x⟩ := r
      have hafter := onBoundAccount_issue py hbound
        (b.stopRequest instrument stopLoss takeProfit t) x
      simp only [stopRounds]
      rcases hissue : b.issue py e (b.stopRequest instrument stopLoss takeProfit t) x with
        ⟨i, ended, after⟩
      rw [hissue] at hafter
      cases ended with
      | result result => exact ih hafter
      | refused text => exact hafter
      | failed text => exact hafter

theorem kept_iff_fresh (hbound : OnBoundAccount e b.account) (m : BookMove F) :
    b.Kept py e m ↔ Fresh py e m := by
  cases m with
  | close instrument lots reason rounds => exact close_kept_iff hbound instrument lots reason rounds
  | modify instrument stopLoss takeProfit rounds =>
      exact iff_of_true (stopRounds_kept hbound instrument stopLoss takeProfit rounds) trivial
  | order request x => simp [Kept, Fresh, play]
  | restart => simp [Kept, Fresh, play]
  | clear key => simp [Kept, Fresh, play]

variable (py) in
theorem onBoundAccount_step (hbound : OnBoundAccount e b.account) (m : BookMove F) :
    OnBoundAccount (b.step py e m) b.account := by
  cases m with
  | order request x => exact onBoundAccount_issue py hbound request x
  | close instrument lots reason rounds =>
      exact onBoundAccount_closeRounds hbound instrument lots reason rounds
  | modify instrument stopLoss takeProfit rounds =>
      exact onBoundAccount_stopRounds hbound instrument stopLoss takeProfit rounds
  | restart => exact b.on_account
  | clear key => exact hbound

/-- In runs of any length: every close and every stop change reaches the terminal
exactly once, exactly when every close is fresh. -/
theorem closesKept_run_iff (journal : Dict Text (JournalEntry F)) (ms : List (BookMove F)) :
    Along (b.step py) (b.Kept py) (Envelope.start b.server.envelope journal) ms ↔
      Along (b.step py) (Fresh py) (Envelope.start b.server.envelope journal) ms := by
  apply Along.iff_of_kept (I := fun e => OnBoundAccount e b.account)
  · exact fun e m hbound _ => onBoundAccount_step py hbound m
  · exact fun e m hbound => kept_iff_fresh hbound m
  · exact b.on_account

end BoundBridge

/-! ## A second close for the same reason -/

theorem zeroDigit_proper : ([0] : List (Fin 10)) ≠ [] ∨ (none : Option Exponent).isSome :=
  .inl (List.cons_ne_nil _ _)

attribute [local instance] neZero_ten in
/-- The bridge of `plainLink` next to a demo account, with whole prices and sizes. -/
def plainBridge : BoundBridge FloatText where
  toLinkConfig := plainLink
  orders :=
    { deviation := 20
      magic := 990011
      floatOf := fun q =>
        .finite ⟨decide (q < 0), ⌊|q|⌋₊, [0], none, zeroDigit_proper⟩
      venue := Text.ofString
      fillingFor := fun _ => 1 }
  account := demoAccount
  on_account := ⟨_, _, _, rfl, fun _ h => by cases h⟩

def closedRound (ticket : ℕ) : BoundBridge.CloseRound FloatText where
  ticket := { symbol := "XAUUSD", ticket, side := .buy, volume := 1, priceOpen := 2600 }
  tick := some { instrument := "XAUUSD", bid := 2650, ask := 2651 }
  sending := ⟨0, .returns (.obj [(Text.ofString "retcode", .int retcodeDone)])⟩

/-- The close of a second position, for the reason the first was closed for, does
not reach the terminal. -/
theorem not_closesKept_twice :
    ¬Along (plainBridge.step plainHost) (plainBridge.Kept plainHost)
      (Envelope.start plainBridge.server.envelope Dict.empty)
      [.close "XAUUSD" none (Text.ofString "trail") [closedRound 11],
        .close "XAUUSD" none (Text.ofString "trail") [closedRound 12]] := by
  intro h
  have hbound := BoundBridge.onBoundAccount_step plainHost plainBridge.on_account
    (.close "XAUUSD" none (Text.ofString "trail") [closedRound 11])
  have hfresh := ((BoundBridge.kept_iff_fresh hbound _).1 h.2.1 rfl).1
  have hentry : (((plainBridge.step plainHost (Envelope.start plainBridge.server.envelope
      Dict.empty) (.close "XAUUSD" none (Text.ofString "trail") [closedRound 11])).journal.get?
        (closeKey (Text.ofString "trail"))).isSome) = true := by
    decide +kernel
  rw [hfresh] at hentry
  cases hentry

end Bridge
end Sentinel
