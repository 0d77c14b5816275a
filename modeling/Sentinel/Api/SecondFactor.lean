import Sentinel.Api.Operations

/-!
# One code, one write

A write checks its code in one section and consumes it in a later one, and the
table of used codes is keyed by the text that was submitted.  Writes of one code
stay apart as long as no other write of that code is between the two sections
and the code is always submitted in one spelling.
-/

namespace Sentinel
namespace SecondFactor

def codeOf (text : String) : List Char := nfkcDigits text.toList

def SameCode (v w : String × String × ℚ) : Prop := v.1 = w.1 ∧ codeOf v.2.1 = codeOf w.2.1

def SingleUse (writes : List (String × String × ℚ)) : Prop :=
  writes.Pairwise fun later earlier =>
    SameCode later earlier → totpReplayTtl < later.2.2 - earlier.2.2

/-! ## What a write is asked for -/

def Unshared (w : SecurityWorld) (s : SecurityState) (a : Section) (e : Reading) : Prop :=
  match a with
  | .verifyTotp username code =>
      ∀ user, s.users.get? username = some user →
        w.acceptsTotp user.totpSecret e.wall (SecurityState.totpText code) = true →
          (∀ v ∈ s.verified, v.2.1 = username →
            codeOf v.2.2 ≠ codeOf (SecurityState.totpText code)) ∧
          ∀ text ts, s.usedTotp.get? (username, text) = some ts →
            e.mono - totpReplayTtl ≤ ts →
            codeOf text = codeOf (SecurityState.totpText code) →
              text = SecurityState.totpText code
  | _ => True

def isWriteOrLogin : SecurityOp → Bool
  | .authoriseWrite .. | .login .. => true
  | _ => false

/-! ## The invariant -/

def Remembered (s : SecurityState) (now : ℚ) (v : String × String × ℚ) : Prop :=
  (∃ ts, s.usedTotp.get? (v.1, v.2.1) = some ts ∧ v.2.2 ≤ ts) ∨ v.2.2 < now - totpReplayTtl

/-- The calls that have a code checked have it alone. -/
def Apart (verified : List (ℕ × String × String)) : Prop :=
  verified.Pairwise fun v v' => v.2.1 = v'.2.1 → codeOf v.2.2 ≠ codeOf v'.2.2

theorem Apart.of_mem {verified : List (ℕ × String × String)} (h : Apart verified)
    {v v' : ℕ × String × String} (hv : v ∈ verified) (hv' : v' ∈ verified) (hne : v ≠ v')
    (huser : v.2.1 = v'.2.1) : codeOf v.2.2 ≠ codeOf v'.2.2 := by
  have hsymm : ∀ a b : ℕ × String × String, (a.2.1 = b.2.1 → codeOf a.2.2 ≠ codeOf b.2.2) →
      b.2.1 = a.2.1 → codeOf b.2.2 ≠ codeOf a.2.2 :=
    fun _ _ hab huser => (hab huser.symm).symm
  have : Std.Symm fun a b : ℕ × String × String => a.2.1 = b.2.1 → codeOf a.2.2 ≠ codeOf b.2.2 :=
    ⟨hsymm⟩
  exact List.Pairwise.forall h hv hv' hne huser

structure Inv (s : SecurityState × ℚ) : Prop where
  remembered : ∀ v ∈ s.1.writes, Remembered s.1 s.2 v
  apart : Apart s.1.verified
  singleUse : SingleUse s.1.writes

def CodeRely (t : ℕ) (s s' : SecurityState × ℚ) : Prop :=
  s.2 ≤ s'.2 ∧ ∀ username text, (t, username, text) ∈ s.1.verified →
    (t, username, text) ∈ s'.1.verified ∧
      ∀ v ∈ s'.1.writes, v ∈ s.1.writes ∨ (v.1 = username → codeOf v.2.1 ≠ codeOf text)

theorem CodeRely.refl (t : ℕ) (s : SecurityState × ℚ) : CodeRely t s s :=
  ⟨le_refl _, fun _ _ h => ⟨h, fun _ hv => .inl hv⟩⟩

theorem CodeRely.trans {t : ℕ} {s₁ s₂ s₃ : SecurityState × ℚ} (h₁₂ : CodeRely t s₁ s₂)
    (h₂₃ : CodeRely t s₂ s₃) : CodeRely t s₁ s₃ := by
  refine ⟨h₁₂.1.trans h₂₃.1, ?_⟩
  intro username text hmem
  obtain ⟨hmem₂, hwrites₂⟩ := h₁₂.2 username text hmem
  obtain ⟨hmem₃, hwrites₃⟩ := h₂₃.2 username text hmem₂
  refine ⟨hmem₃, ?_⟩
  intro v hv
  rcases hwrites₃ v hv with hv | hv
  · exact hwrites₂ v hv
  · exact .inr hv

abbrev timedMachine (cfg : SecurityConfig) (w : SecurityWorld) :
    Machine (SecurityState × ℚ) Reading SecurityOp AccountChange Outcome Section.Answer :=
  (securityMachine cfg w).timed fun e => e.mono

def discipline (cfg : SecurityConfig) (w : SecurityWorld) : Discipline (timedMachine cfg w) where
  inv := Inv
  rely := CodeRely
  meetsStart _ op := isWriteOrLogin op = true
  meets s _ _ a e := s.2 ≤ e.mono ∧ Unshared w s.1 a e
  meetsOutside _ _ := True
  effect _ _ _ _ _ := True
  rely_refl := CodeRely.refl
  rely_trans _ _ _ _ h₁₂ h₂₃ := h₁₂.trans h₂₃
  outside_keeps _ _ h _ :=
    ⟨⟨h.remembered, h.apart, h.singleUse⟩, fun _ =>
      ⟨le_refl _, fun _ _ hmem => ⟨hmem, fun _ hv => .inl hv⟩⟩⟩

/-! ## What the sections keep -/

structure SameCodes (s s' : SecurityState) (now : ℚ) : Prop where
  verified : s'.verified = s.verified
  writes : s'.writes = s.writes
  used : ∀ key ts, s.usedTotp.get? key = some ts → now - totpReplayTtl ≤ ts →
    s'.usedTotp.get? key = some ts

theorem SameCodes.keeps {s s' : SecurityState} {now before : ℚ} (h : SameCodes s s' now)
    (hclock : before ≤ now) (hs : Inv (s, before)) : Inv (s', now) := by
  refine ⟨?_, ?_, ?_⟩
  · intro v hv
    rw [h.writes] at hv
    rcases hs.remembered v hv with ⟨ts, hts, hle⟩ | hold
    · by_cases hrecent : now - totpReplayTtl ≤ ts
      · exact .inl ⟨ts, h.used _ ts hts hrecent, hle⟩
      · exact .inr (hle.trans_lt (lt_of_not_ge hrecent))
    · refine .inr (hold.trans_le ?_)
      simp only [sub_eq_add_neg]
      exact add_le_add_left hclock _
  · rw [h.verified]
    exact hs.apart
  · rw [h.writes]
    exact hs.singleUse

theorem SameCodes.rely {s s' : SecurityState} {now before : ℚ} (h : SameCodes s s' now)
    (hclock : before ≤ now) (t : ℕ) : CodeRely t (s, before) (s', now) := by
  refine ⟨hclock, ?_⟩
  intro username text hmem
  rw [h.verified, h.writes]
  exact ⟨hmem, fun _ hv => .inl hv⟩

def isPlain : Section → Bool
  | .openLogin .. | .closeLogin .. | .reload .. | .checkRate .. | .lockedOut .. |
    .failSecondFactor .. => true
  | _ => false

theorem sameCodes_perform {cfg : SecurityConfig} {w : SecurityWorld} {t : ℕ} {a : Section}
    {e : Reading} {s s' : SecurityState} {b : a.Answer} (ha : isPlain a = true)
    (h : (securityMachine cfg w).perform t a e s = some (s', b)) : SameCodes s s' e.mono := by
  cases a
  case openLogin username clientIp =>
    obtain ⟨u, l, hs⟩ := s.openLogin_changes cfg username clientIp e
    obtain rfl := performed hs h
    refine ⟨rfl, rfl, ?_⟩
    intro key ts hts hrecent
    simp only [SecurityState.pruneTracking, Dict.get?_keep, hts, Option.filter_some]
    rw [if_pos]
    simpa using hrecent
  case closeLogin username clientIp user ok tokenId fingerprint =>
    obtain ⟨f, l, k, ss, hs⟩ :=
      s.closeLogin_changes cfg username clientIp user ok tokenId fingerprint e
    obtain rfl := performed hs h
    exact ⟨rfl, rfl, fun _ _ hts _ => hts⟩
  case reload username =>
    obtain ⟨u, hs⟩ := s.reloadUser_changes username e
    obtain rfl := performed hs h
    exact ⟨rfl, rfl, fun _ _ hts _ => hts⟩
  case checkRate key perMinute =>
    obtain ⟨table, hs⟩ := s.checkRate_changes key perMinute e.mono
    obtain rfl := performed hs h
    exact ⟨rfl, rfl, fun _ _ hts _ => hts⟩
  case lockedOut key =>
    obtain ⟨l, hs⟩ := s.lockedOut_changes key e.mono
    obtain rfl := performed hs h
    exact ⟨rfl, rfl, fun _ _ hts _ => hts⟩
  case failSecondFactor username =>
    obtain ⟨f, l, k, ss, hs⟩ := s.failSecondFactor_changes cfg username e
    obtain rfl := performed (p := (_, ())) hs h
    exact ⟨rfl, rfl, fun _ _ hts _ => hts⟩
  all_goals cases ha

section Triples

variable {cfg : SecurityConfig} {w : SecurityWorld} {t : ℕ} {op : SecurityOp}

theorem triple_plain {a : Section} (ha : isPlain a = true) :
    (discipline cfg w).Triple t op (fun _ => True) (Operations.atomic a) fun _ _ => True := by
  apply Discipline.Triple.action fun _ _ _ _ => trivial
  intro s e s' b _ hinv hmeets hperform
  have hsection := (Machine.recorded_perform hperform).1
  have htime : s'.2 = e.mono := (Machine.recorded_perform hperform).2
  have hsame := sameCodes_perform ha hsection
  rw [← htime] at hsame
  have hclock : s.2 ≤ s'.2 := by
    rw [htime]
    exact hmeets.1
  exact ⟨trivial, hsame.keeps hclock hinv, fun u _ => hsame.rely hclock u, trivial⟩

structure Checked (t : ℕ) (username text : String) (s : SecurityState × ℚ) : Prop where
  mem : (t, username, text) ∈ s.1.verified
  old : ∀ v ∈ s.1.writes, v.1 = username → codeOf v.2.1 = codeOf text →
    v.2.2 < s.2 - totpReplayTtl

theorem Checked.stable {username text : String} :
    (discipline cfg w).Stable t (Checked t username text) := by
  intro s s' hrely h
  obtain ⟨hclock, hcodes⟩ := hrely
  obtain ⟨hmem, hwrites⟩ := hcodes username text h.mem
  refine ⟨hmem, ?_⟩
  intro v hv huser hcode
  rcases hwrites v hv with hv | hv
  · exact (h.old v hv huser hcode).trans_le (sub_le_sub_right hclock _)
  · exact absurd hcode (hv huser)

theorem triple_verifyTotp {username code : String} :
    (discipline cfg w).Triple t op (fun _ => True)
      (Operations.atomic (.verifyTotp username code))
      fun b s => b.1 = true → Checked t username (SecurityState.totpText code) s := by
  apply Discipline.Triple.action fun _ _ _ _ => trivial
  intro s e s' b _ hinv hmeets hperform
  obtain ⟨hsection, htime⟩ := Machine.recorded_perform hperform
  obtain ⟨s₁, now⟩ := s'
  dsimp only at hsection htime
  subst htime
  have hclock : s.2 ≤ e.mono := hmeets.1
  rcases perform_verifyTotp hsection with ⟨-, haccepted, rfl⟩ | ⟨hrefused, rfl⟩
  · obtain ⟨user, hget, -, -, hunused, haccepts⟩ :=
      SecurityState.verifyTotp_accepted s.1 haccepted
    obtain ⟨halone, hspelling⟩ := hmeets.2 user hget haccepts
    refine ⟨trivial, ⟨?_, ?_, hinv.singleUse⟩, ?_, ?_⟩
    · intro v hv
      rcases hinv.remembered v hv with hused | hold
      · exact .inl hused
      · exact .inr (hold.trans_le (sub_le_sub_right hclock _))
    · apply List.Pairwise.cons _ hinv.apart
      intro v hv huser hcode
      exact halone v hv huser.symm hcode.symm
    · intro u _
      refine ⟨hclock, ?_⟩
      intro name text hmem
      exact ⟨List.mem_cons_of_mem _ hmem, fun _ hv => .inl hv⟩
    · intro _
      refine ⟨List.mem_cons_self, ?_⟩
      intro v hv huser hcode
      rcases hinv.remembered v hv with ⟨ts, hts, hle⟩ | hold
      · rw [huser] at hts
        by_cases hrecent : e.mono - totpReplayTtl ≤ ts
        · have htext := hspelling v.2.1 ts hts hrecent hcode
          rw [htext, hunused] at hts
          cases hts
        · exact hle.trans_lt (lt_of_not_ge hrecent)
      · exact hold.trans_le (sub_le_sub_right hclock _)
  · have hsame : SameCodes s.1 s.1 e.mono := ⟨rfl, rfl, fun _ _ hts _ => hts⟩
    refine ⟨trivial, hsame.keeps hclock hinv, fun u _ => hsame.rely hclock u, ?_⟩
    intro hb
    rw [hrefused] at hb
    cases hb

theorem triple_consumeTotp {username code : String} :
    (discipline cfg w).Triple t op (Checked t username (SecurityState.totpText code))
      (Operations.atomic (.consumeTotp username code)) fun _ _ => True := by
  apply Discipline.Triple.action Checked.stable
  intro s e s' b hchecked hinv hmeets hperform
  obtain ⟨hsection, htime⟩ := Machine.recorded_perform hperform
  obtain ⟨s₁, now⟩ := s'
  dsimp only at hsection htime
  subst htime
  have hclock : s.2 ≤ e.mono := hmeets.1
  obtain rfl := perform_consumeTotp hsection
  have hold : ∀ v ∈ s.1.writes, v.1 = username →
      codeOf v.2.1 = codeOf (SecurityState.totpText code) → v.2.2 < e.mono - totpReplayTtl := by
    intro v hv huser hcode
    exact (hchecked.old v hv huser hcode).trans_le (sub_le_sub_right hclock _)
  refine ⟨trivial, ⟨?_, ?_, ?_⟩, ?_, trivial⟩
  · intro v hv
    rcases List.mem_cons.mp hv with rfl | hv
    · exact .inl ⟨e.mono, Dict.get?_set_self _ _ _, le_refl _⟩
    · by_cases hkey : (v.1, v.2.1) = (username, SecurityState.totpText code)
      · rw [Prod.mk.injEq] at hkey
        exact .inr (hold v hv hkey.1 (by rw [hkey.2]))
      · rcases hinv.remembered v hv with ⟨ts, hts, hle⟩ | hlong
        · refine .inl ⟨ts, ?_, hle⟩
          rw [← hts]
          exact Dict.get?_set_of_ne _ hkey _
        · exact .inr (hlong.trans_le (sub_le_sub_right hclock _))
  · exact hinv.apart.sublist List.filter_sublist
  · apply List.Pairwise.cons _ hinv.singleUse
    rintro v hv ⟨huser, hcode⟩
    have hlt := hold v hv huser.symm hcode.symm
    dsimp only
    linarith
  · intro u hu
    refine ⟨hclock, ?_⟩
    intro name text hmem
    refine ⟨List.mem_filter.mpr ⟨hmem, by simpa using hu⟩, ?_⟩
    intro v hv
    rcases List.mem_cons.mp hv with rfl | hv
    · right
      intro hname hcode
      -- two calls that have one code checked would not be apart
      exact hinv.apart.of_mem hchecked.mem hmem (by simpa using fun h => absurd h (Ne.symm hu))
        hname hcode
    · exact .inl hv

theorem triple_return (o : Outcome) :
    (discipline cfg w).Triple t op (fun _ => True) (pure o) fun _ _ => True :=
  Discipline.Triple.ret fun _ _ => trivial

theorem verified_login (username password userAgent clientIp tokenId : String) :
    (discipline cfg w).Triple t op (fun _ => True)
      (Operations.login w username password userAgent clientIp tokenId) fun _ _ => True := by
  apply Discipline.Triple.bind (triple_plain rfl)
  intro b
  rcases b with remaining | user
  · exact triple_return _
  · apply Discipline.Triple.bind (triple_plain rfl)
    intro b
    cases b <;> exact triple_return _

theorem verified_authoriseWrite (username code : String) (requiresOwner : Bool) :
    (discipline cfg w).Triple t op (fun _ => True)
      (Operations.authoriseWrite cfg username code requiresOwner) fun _ _ => True := by
  apply Discipline.Triple.bind (triple_plain rfl)
  intro user
  rcases user with - | user
  · exact triple_return _
  · dsimp only
    split
    · exact triple_return _
    · split
      · exact triple_return _
      · apply Discipline.Triple.bind (R := fun _ _ => True) (triple_plain rfl)
        intro b
        cases b
        · exact triple_return _
        · apply Discipline.Triple.bind (triple_plain rfl)
          intro remaining
          rcases remaining with - | remaining
          · apply Discipline.Triple.bind triple_verifyTotp
            rintro ⟨ok, message⟩
            cases ok
            · apply Discipline.Triple.weaken (P := fun _ => True) _ fun _ _ => trivial
              exact Discipline.Triple.bind (triple_plain rfl) fun _ => triple_return _
            · apply Discipline.Triple.weaken _ fun s hs => hs rfl
              exact Discipline.Triple.bind triple_consumeTotp fun _ => triple_return _
          · exact triple_return _

end Triples

theorem verified (cfg : SecurityConfig) (w : SecurityWorld) : (discipline cfg w).Verified := by
  intro t op s hs
  obtain ⟨-, hop⟩ := hs
  cases op with
  | login username password userAgent clientIp tokenId =>
      exact verified_login username password userAgent clientIp tokenId s trivial
  | authoriseWrite username code requiresOwner =>
      exact verified_authoriseWrite username code requiresOwner s trivial
  | _ => cases hop

/-! ## Runs -/

abbrev CodeMove : Type := PoolMove Reading SecurityOp AccountChange

/-- One code, one write.  In every run of writes and logins, with the account
table changed from outside, in which each accepted code is checked and unconsumed
in no other call and has been used in no other spelling within the window, no
code is accepted for two writes within the window. -/
theorem one_code_one_write (cfg : SecurityConfig) (w : SecurityWorld) (store : Accounts)
    (now : ℚ) (ms : List CodeMove)
    (hms : Along (timedMachine cfg w).step (discipline cfg w).Meets
      (Machine.quiet (SecurityState.start store, now)) ms) :
    SingleUse (ms.foldl (timedMachine cfg w).step
      (Machine.quiet (SecurityState.start store, now))).shared.1.writes := by
  have hstart : Inv (SecurityState.start store, now) :=
    ⟨by simp [SecurityState.start], List.Pairwise.nil, List.Pairwise.nil⟩
  exact (Discipline.sound_run (verified cfg w) (Discipline.sound_quiet hstart) hms).1.singleUse

/-! ## One code, two writes -/

instance (v w : String × String × ℚ) : Decidable (SameCode v w) :=
  inferInstanceAs (Decidable (_ ∧ _))

instance (writes : List (String × String × ℚ)) : Decidable (SingleUse writes) :=
  inferInstanceAs (Decidable (List.Pairwise _ _))

def timeStep (wall : ℤ) : ℤ := wall / 30000000000

def AcceptsWindow (w : SecurityWorld) (codeAt : String → ℤ → List Char) : Prop :=
  ∀ secret wall text, w.acceptsTotp secret wall text = true ↔
    ∃ k ∈ [timeStep wall - 1, timeStep wall, timeStep wall + 1], codeOf text = codeAt secret k

def countingCode (_ : String) (step : ℤ) : List Char :=
  (toString (100000 + step.natAbs % 900000)).toList

def countingWorld : SecurityWorld where
  text := ⟨id, Char.isAlphanum, Char.isAlpha⟩
  verifyPassword password hash := password == hash
  dummyHash := ""
  fingerprint userAgent clientIp := userAgent ++ "|" ++ clientIp
  acceptsTotp secret wall text := [timeStep wall - 1, timeStep wall, timeStep wall + 1].any
    fun k => codeOf text = countingCode secret k
  encodeToken session := session.tokenId
  decodeToken _ token := some token

theorem countingWorld_acceptsWindow : AcceptsWindow countingWorld countingCode := by
  intro secret wall text
  simp only [countingWorld, List.any_eq_true, decide_eq_true_eq]

def countingConfig : SecurityConfig where
  sessionTtl := 1800
  maxLoginAttempts := 5
  lockoutSec := 900
  writeRatePerMinute := 10

def oneAccount : Accounts :=
  Accounts.empty.put ⟨"alice", "hash", "secret", .operator, 0, false⟩

def atStep : Reading := ⟨0, 3000000000000, true⟩

def respelledWrites : List CodeMove :=
  .start 0 (.authoriseWrite "alice" "100100" false) :: List.replicate 5 (.step 0 atStep) ++
    .start 0 (.authoriseWrite "alice" "１００１００" false) :: List.replicate 5 (.step 0 atStep)

def overlappingWrites : List CodeMove :=
  .start 0 (.authoriseWrite "alice" "100100" false) :: List.replicate 4 (.step 0 atStep) ++
    .start 1 (.authoriseWrite "alice" "100100" false) :: List.replicate 4 (.step 1 atStep) ++
    [.step 0 atStep, .step 1 atStep]

def WriteMove (username : String) (r : Reading) : CodeMove → Prop
  | .start _ (.authoriseWrite name _ _) => name = username
  | .step _ e => e = r
  | _ => False

/-- A code is accepted twice, by writes that overlap and in two spellings. -/
theorem code_authorises_two_writes :
    ∃ (cfg : SecurityConfig) (w : SecurityWorld) (codeAt : String → ℤ → List Char)
      (store : Accounts) (r : Reading) (overlapping respelled : List CodeMove),
      AcceptsWindow w codeAt ∧ (∀ m ∈ overlapping ++ respelled, WriteMove "alice" r m) ∧
      ¬ SingleUse (overlapping.foldl (timedMachine cfg w).step
        (Machine.quiet (SecurityState.start store, 0))).shared.1.writes ∧
      ¬ SingleUse (respelled.foldl (timedMachine cfg w).step
        (Machine.quiet (SecurityState.start store, 0))).shared.1.writes := by
  refine ⟨countingConfig, countingWorld, countingCode, oneAccount, atStep, overlappingWrites,
    respelledWrites, countingWorld_acceptsWindow, ?_, ?_, ?_⟩
  · simp [overlappingWrites, respelledWrites, WriteMove]
  · decide +kernel
  · decide +kernel

/-- `Unshared`, of the texts of the whole table of used codes. -/
def unsharedTexts (s : SecurityState) : Section → Bool
  | .verifyTotp username code =>
      let text := SecurityState.totpText code
      (s.verified.all fun v => v.2.1 ≠ username || codeOf v.2.2 ≠ codeOf text) &&
        s.usedTotp.items.all fun row => codeOf row.1.2 ≠ codeOf text || row.1.2 = text
  | _ => true

theorem unshared_of_texts {w : SecurityWorld} {s : SecurityState} {a : Section} (e : Reading)
    (h : unsharedTexts s a = true) : Unshared w s a e := by
  cases a with
  | verifyTotp username code =>
      simp only [unsharedTexts, Bool.and_eq_true, List.all_eq_true, Bool.or_eq_true,
        decide_eq_true_eq] at h
      refine fun user _ _ => ⟨fun v hv huser => ?_, fun text ts hts _ hsame => ?_⟩
      · exact (h.1 v hv).resolve_left fun hne => hne huser
      · exact (h.2 _ ((Dict.mem_items_iff _ _ _).mpr hts)).resolve_left fun hne => hne hsame
  | _ => trivial

def meetsTexts (p : Pool (SecurityState × ℚ) SecurityOp Outcome Section.Answer) : CodeMove → Bool
  | .start _ op => isWriteOrLogin op
  | .step t e =>
      match p.calls t with
      | some ⟨_, .act a _⟩ => decide (p.shared.2 ≤ e.mono) && unsharedTexts p.shared.1 a
      | _ => true
  | .outside _ => true

def pairedWrites : List CodeMove :=
  [.start 0 (.authoriseWrite "alice" "100100" false),
    .start 1 (.authoriseWrite "alice" "100101" false)] ++
  (List.replicate 5 [.step 0 atStep, .step 1 atStep]).flatten ++
  .start 2 (.authoriseWrite "alice" "100100" false) :: List.replicate 5 (.step 2 atStep)

/-- Both codes are used, and neither of them twice. -/
theorem paired_writes_single_use :
    let writes := (pairedWrites.foldl (timedMachine countingConfig countingWorld).step
      (Machine.quiet (SecurityState.start oneAccount, 0))).shared.1.writes
    writes.map (fun write => write.2.1) = ["100101", "100100"] ∧ SingleUse writes := by
  refine ⟨by decide +kernel, one_code_one_write _ _ _ _ _ ?_⟩
  have hmeets : Along (timedMachine countingConfig countingWorld).step
      (fun p m => meetsTexts p m = true) (Machine.quiet (SecurityState.start oneAccount, 0))
      pairedWrites := by
    decide +kernel
  refine Along.mono (I := fun _ => True) (fun _ _ _ _ => trivial) (fun p m _ hm => ?_) trivial
    hmeets
  rcases m with ⟨t, op⟩ | ⟨t, e⟩ | x
  · exact hm
  · simp only [meetsTexts] at hm
    rw [Discipline.Meets]
    split at hm
    · next op a k hcall =>
        rw [hcall]
        rw [Bool.and_eq_true, decide_eq_true_eq] at hm
        exact ⟨hm.1, unshared_of_texts e hm.2⟩
    · next hnone =>
        split
        · next op a k hcall => exact absurd hcall (hnone op a k)
        · trivial
  · trivial

end SecondFactor
end Sentinel
