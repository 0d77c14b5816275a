import Sentinel.Support.Runs
import Mathlib.Data.List.Induction
import Mathlib.Data.List.Nodup
import Mathlib.Data.Rat.Defs

/-!
# Commands from the chat

The polls of a bot over the life of the service, with replies that fail, writes of the
offsets that fail, and restarts.
-/

namespace Sentinel.Notifier

/-! ## Commands -/

def commandMaxAgeSec : ℚ := 300

structure Update where
  id : ℕ
  chat : String
  words : List String
  dateSec : ℚ := 0

structure Delivery extends Update where
  nowNs : ℤ
  raises : Bool := false

inductive Command where
  | status | stop | help | unknown
  deriving DecidableEq

theorem lawful_words : LawfulBEq (List Char) := inferInstance

attribute [local instance] lawful_words in
/-- What `command` takes the first word for. -/
def Update.command (u : Update) : Command :=
  let word := ((u.words.headD "").toList.map Char.toLower).takeWhile (· ≠ '@')
  if word ∈ ["/status".toList, "وضعیت".toList] then .status
  else if word ∈ ["/stop".toList, "توقف".toList] then .stop
  else if word ∈ ["/help".toList, "/start".toList, "راهنما".toList] then .help
  else .unknown

inductive Call where
  | statusFn
  | killFn (id : ℕ)

/-- What a command calls, with a `kill_fn` at hand or none. -/
def Update.calls (killable : Bool) (u : Update) : List Call :=
  match u.command with
  | .status => [.statusFn]
  | .stop => if killable then [.killFn u.id] else []
  | _ => []

namespace Delivery

def Heard (chat : String) (d : Delivery) : Prop :=
  d.chat = chat ∧ d.words ≠ [] ∧
    ¬ (d.dateSec ≠ 0 ∧ commandMaxAgeSec < d.nowNs / 10 ^ 9 - d.dateSec)

instance (chat : String) (d : Delivery) : Decidable (d.Heard chat) :=
  inferInstanceAs (Decidable (_ ∧ _ ∧ _))

def Fails (chat : String) (d : Delivery) : Prop :=
  d.Heard chat ∧ d.command ≠ .unknown ∧ d.raises

instance (chat : String) (d : Delivery) : Decidable (d.Fails chat) :=
  inferInstanceAs (Decidable (_ ∧ _ ∧ _))

end Delivery

/-- The loop of `poll_once`: the new offset (none where an answer raises) and the calls. -/
def pollOnce (killable : Bool) (chat : String) : ℕ → List Delivery → Option ℕ × List Call
  | offset, [] => (some offset, [])
  | offset, d :: ds =>
    let rest := pollOnce killable chat (max offset (d.id + 1)) ds
    if d.Heard chat then
      if d.Fails chat then (none, d.calls killable)
      else (rest.1, d.calls killable ++ rest.2)
    else rest

/-! ## The service -/

/-- The offset of a channel, in memory and on the disk, and the calls so far. -/
structure Service where
  offset : ℕ := 0
  saved : ℕ := 0
  calls : List Call := []

inductive Event where
  /-- A poll of a channel whose `chat` is configured, and whether the offset is written. -/
  | poll (killable : Bool) (chat : String) (batch : List Delivery) (writes : Bool)
  /-- The settings are written for another reason. -/
  | save
  /-- The process ends, perhaps in a batch, and starts again. -/
  | restart

variable (s : Service)

def Service.step : Event → Service
  | .poll killable chat batch writes =>
    let r := pollOnce killable chat s.offset batch
    match r.1 with
    | none => { s with calls := s.calls ++ r.2 }
    | some new =>
      { offset := new
        saved := if new ≠ s.offset ∧ writes then new else s.saved
        calls := s.calls ++ r.2 }
  | .save => { s with saved := s.offset }
  | .restart => { s with offset := s.saved }

def Served : Event → Prop
  | .poll _ _ batch _ => (∀ d ∈ batch, s.offset ≤ d.id) ∧ (batch.map fun d => d.id).Nodup
  | _ => True

/-- The updates for which `kill_fn` was called. -/
def kills (calls : List Call) : List ℕ :=
  calls.filterMap fun
    | .killFn id => some id
    | .statusFn => none

/-- Once a `/stop` of a batch is obeyed, no answer raises. -/
def SettledBatch (chat : String) : List Delivery → Prop
  | [] => True
  | d :: ds =>
    (d.Heard chat ∧ d.command = .stop → ∀ e ∈ d :: ds, ¬ e.Fails chat) ∧
      (d.Fails chat ∨ SettledBatch chat ds)

/-- So it is in every batch, and the offset on the disk is past every `/stop` obeyed when
the process ends. -/
def Settled : Event → Prop
  | .poll _ chat batch _ => SettledBatch chat batch
  | .save => True
  | .restart => ∀ id ∈ kills s.calls, id < s.saved

/-! ## One poll -/

theorem kills_append (calls calls' : List Call) :
    kills (calls ++ calls') = kills calls ++ kills calls' := List.filterMap_append

theorem kills_calls (killable : Bool) (u : Update) :
    kills (u.calls killable) = if u.command = .stop ∧ killable then [u.id] else [] := by
  rw [Update.calls]
  rcases u.command <;> cases killable <;> rfl

theorem pollOnce_calls (killable : Bool) (chat : String) (batch : List Delivery) (offset : ℕ) :
    (kills (pollOnce killable chat offset batch).2).Sublist (batch.map fun d => d.id) ∧
      ∀ call ∈ (pollOnce killable chat offset batch).2,
        ∃ d ∈ batch, d.Heard chat ∧ call ∈ d.calls killable := by
  induction batch generalizing offset with
  | nil => exact ⟨List.Sublist.refl [], fun call h => by cases h⟩
  | cons d batch ih =>
    obtain ⟨hsub, hall⟩ := ih (max offset (d.id + 1))
    have hlater : ∀ call ∈ (pollOnce killable chat (max offset (d.id + 1)) batch).2,
        ∃ e ∈ d :: batch, e.Heard chat ∧ call ∈ e.calls killable := by
      intro call hcall
      obtain ⟨e, he, h⟩ := hall call hcall
      exact ⟨e, List.mem_cons_of_mem d he, h⟩
    have hown : (kills (d.calls killable)).Sublist [d.id] := by
      rw [kills_calls]
      split_ifs
      · exact List.Sublist.refl _
      · exact List.nil_sublist _
    rw [pollOnce]
    split_ifs with hheard hfails
    · refine ⟨?_, fun call hcall => ⟨d, List.mem_cons_self, hheard, hcall⟩⟩
      exact hown.trans (List.singleton_sublist.mpr List.mem_cons_self)
    · refine ⟨?_, fun call hcall => ?_⟩
      · rw [kills_append]
        exact hown.append hsub
      · rcases List.mem_append.mp hcall with hcall | hcall
        · exact ⟨d, List.mem_cons_self, hheard, hcall⟩
        · exact hlater call hcall
    · exact ⟨hsub.cons _, hlater⟩

variable {killable : Bool} {chat : String} {batch : List Delivery}

theorem lt_of_pollOnce {offset new : ℕ} (h : (pollOnce killable chat offset batch).1 = some new) :
    offset ≤ new ∧ ∀ d ∈ batch, d.id < new := by
  induction batch generalizing offset with
  | nil => exact ⟨(Option.some.inj h).le, fun d hd => by cases hd⟩
  | cons d batch ih =>
    have hrest : (pollOnce killable chat (max offset (d.id + 1)) batch).1 = some new := by
      rw [pollOnce] at h
      split_ifs at h
      · exact h
      · exact h
    obtain ⟨hle, hall⟩ := ih hrest
    refine ⟨(le_max_left _ _).trans hle, fun e he => ?_⟩
    rcases List.mem_cons.mp he with rfl | he
    · exact (le_max_right _ _).trans hle
    · exact hall e he

theorem exists_fails {offset : ℕ}
    (h : (pollOnce killable chat offset batch).1 = none) : ∃ d ∈ batch, d.Fails chat := by
  induction batch generalizing offset with
  | nil => cases h
  | cons d batch ih =>
    by_cases hfails : d.Fails chat
    · exact ⟨d, List.mem_cons_self, hfails⟩
    · have hrest : (pollOnce killable chat (max offset (d.id + 1)) batch).1 = none := by
        rw [pollOnce] at h
        split_ifs at h
        · exact h
        · exact h
      obtain ⟨e, he, hfails⟩ := ih hrest
      exact ⟨e, List.mem_cons_of_mem d he, hfails⟩

theorem kills_of_unfinished {offset : ℕ} (hsettled : SettledBatch chat batch)
    (h : (pollOnce killable chat offset batch).1 = none) :
    kills (pollOnce killable chat offset batch).2 = [] := by
  induction batch generalizing offset with
  | nil => cases h
  | cons d batch ih =>
    obtain ⟨hstop, hlater⟩ := hsettled
    obtain ⟨e, he, hfails⟩ := exists_fails h
    rw [pollOnce] at h ⊢
    by_cases hheard : d.Heard chat
    · have hown : kills (d.calls killable) = [] := by
        rw [kills_calls, if_neg fun hc => hstop ⟨hheard, hc.1⟩ e he hfails]
      rw [if_pos hheard] at h ⊢
      by_cases hraises : d.Fails chat
      · rw [if_pos hraises]
        exact hown
      · rw [if_neg hraises] at h ⊢
        rw [kills_append, hown, ih (hlater.resolve_left hraises) h, List.nil_append]
    · rw [if_neg hheard] at h ⊢
      exact ih (hlater.resolve_left fun hraises => hheard hraises.1) h

/-! ## The life of the service -/

variable (events : List Event)

def run : Service := events.foldl Service.step {}

/-- Every `/stop` obeyed was obeyed once, and is past. -/
def Consumed : Prop :=
  (kills s.calls).Nodup ∧ ∀ id ∈ kills s.calls, id < s.offset

theorem consumed_step {s : Service} {e : Event} (hs : Consumed s)
    (he : Served s e ∧ Settled s e) : Consumed (s.step e) := by
  obtain ⟨hnodup, hpast⟩ := hs
  obtain ⟨hserved, hsettled⟩ := he
  rcases e with ⟨killable, chat, batch, writes⟩ | _ | _
  · obtain ⟨hsub, -⟩ := pollOnce_calls killable chat batch s.offset
    rw [Service.step]
    rcases hnew : (pollOnce killable chat s.offset batch).1 with _ | new
    · have hkills := kills_of_unfinished hsettled hnew
      simp only [Consumed, kills_append, hkills, List.append_nil]
      exact ⟨hnodup, hpast⟩
    · obtain ⟨hle, hall⟩ := lt_of_pollOnce hnew
      have hfound : ∀ id ∈ kills (pollOnce killable chat s.offset batch).2,
          s.offset ≤ id ∧ id < new := by
        intro id hid
        obtain ⟨d, hd, rfl⟩ := List.mem_map.mp (hsub.subset hid)
        exact ⟨hserved.1 d hd, hall d hd⟩
      simp only [Consumed, kills_append]
      refine ⟨List.nodup_append.mpr ⟨hnodup, hsub.nodup hserved.2, ?_⟩, fun id hid => ?_⟩
      · intro a ha b hb hab
        have hlt := (hpast a ha).trans_le (hfound b hb).1
        exact hlt.ne hab
      · rcases List.mem_append.mp hid with hid | hid
        · exact (hpast id hid).trans_le hle
        · exact (hfound id hid).2
  · exact ⟨hnodup, hpast⟩
  · exact ⟨hnodup, hsettled⟩

def Commanded (call : Call) : Prop :=
  ∃ killable chat batch writes, .poll killable chat batch writes ∈ events ∧
    ∃ d ∈ batch, d.Heard chat ∧ call ∈ d.calls killable

theorem commanded_run (call : Call) (h : call ∈ (run events).calls) : Commanded events call := by
  induction events using List.reverseRecOn with
  | nil => cases h
  | append_singleton events e ih =>
    have hold : call ∈ (run events).calls → Commanded (events ++ [e]) call := by
      intro h
      obtain ⟨killable, chat, batch, writes, hpoll, hd⟩ := ih h
      exact ⟨killable, chat, batch, writes, List.mem_append_left _ hpoll, hd⟩
    rw [run, List.foldl_append] at h
    rcases e with ⟨killable, chat, batch, writes⟩ | _ | _
    · have hcalls : call ∈ (run events).calls ++
          (pollOnce killable chat (run events).offset batch).2 := by
        change call ∈ ((run events).step (.poll killable chat batch writes)).calls at h
        rw [Service.step] at h
        split at h
        · exact h
        · exact h
      rcases List.mem_append.mp hcalls with hcall | hcall
      · exact hold hcall
      · obtain ⟨-, hall⟩ := pollOnce_calls killable chat batch (run events).offset
        exact ⟨killable, chat, batch, writes, by simp, hall call hcall⟩
    · exact hold h
    · exact hold h

/-- Over the life of the service every call of the engine is of a command that is heard; and
where every step is settled, `kill_fn` is called at most once for each update. -/
theorem obeyed_once :
    (∀ call ∈ (run events).calls, Commanded events call) ∧
      (Along Service.step (fun s e => Served s e ∧ Settled s e) {} events →
        (kills (run events).calls).Nodup) := by
  refine ⟨commanded_run events, fun hsettled => ?_⟩
  have hinit : Consumed {} := ⟨List.nodup_nil, fun id hid => by cases hid⟩
  exact (Along.invariant (fun s e => consumed_step) hinit hsettled).1

/-- A `/stop`, the settings written, a restart, and a `/help`. -/
theorem obeyed_once_restart :
    (kills (run [.poll true "7" [{ id := 3, chat := "7", words := ["/stop"], nowNs := 0 }] false,
      .save, .restart,
      .poll true "7" [{ id := 4, chat := "7", words := ["/help"], nowNs := 0 }] true]).calls
      ).Nodup :=
  (obeyed_once _).2 ⟨⟨⟨by decide, by decide⟩, fun _ => by decide, Or.inr trivial⟩,
    ⟨trivial, trivial⟩, ⟨trivial, (by decide : ∀ id ∈ [3], id < 4)⟩,
    ⟨⟨by decide, by decide⟩, fun _ => by decide, Or.inr trivial⟩, trivial⟩

/-- A `/stop` whose answer cannot be sent is obeyed again by the next poll. -/
theorem obeyed_twice :
    ¬ ∀ events, Along Service.step Served {} events → (kills (run events).calls).Nodup := by
  intro h
  let stop : Delivery := { id := 3, chat := "7", words := ["/stop"], nowNs := 0, raises := true }
  exact absurd (h [.poll true "7" [stop] true, .poll true "7" [stop] true]
    ⟨⟨by decide, by decide⟩, ⟨by decide, by decide⟩, trivial⟩) (by decide)

end Sentinel.Notifier
