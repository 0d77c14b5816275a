import Mathlib.Data.List.DropRight
import Sentinel.Core.Audit
import Sentinel.Data.ReferencePrice

/-!
# Frames and bars of the chart stream

A frame is packets one after another, each behind a mark that gives its length.
The reader splits at the marks and does not use the length, so a packet that
cannot be read costs no other one.  The bars of an instrument are asked for in
rounds, over one session.
-/

namespace Sentinel

/-! ## Splitting at marks -/

section Split

variable {α : Type*} (mark : List α → Option ℕ)

/-- The parts of a text between its marks: `mark` gives the length of a mark at
the start of a text.  The first `skip` elements belong to a mark already found. -/
def splitAtMarks (skip : ℕ) : List α → List (List α)
  | [] => [[]]
  | c :: cs =>
      match skip with
      | skip + 1 => splitAtMarks skip cs
      | 0 =>
          match mark (c :: cs) with
          | some n => [] :: splitAtMarks (n - 1) cs
          | none => (c :: (splitAtMarks 0 cs).headD []) :: (splitAtMarks 0 cs).tail

theorem splitAtMarks_skip (xs rest : List α) :
    splitAtMarks mark xs.length (xs ++ rest) = splitAtMarks mark 0 rest := by
  induction xs with
  | nil => rfl
  | cons x xs ih => exact ih

theorem splitAtMarks_mark {xs rest : List α} (hne : xs ≠ [])
    (h : mark (xs ++ rest) = some xs.length) :
    splitAtMarks mark 0 (xs ++ rest) = [] :: splitAtMarks mark 0 rest := by
  obtain ⟨x, xs, rfl⟩ := List.exists_cons_of_ne_nil hne
  rw [List.cons_append] at h ⊢
  rw [splitAtMarks, h]
  simp only [List.length_cons, Nat.add_sub_cancel, splitAtMarks_skip]

/-- A part is kept whole when no mark starts in it. -/
theorem splitAtMarks_append {part rest : List α} {parts : List (List α)}
    (hrest : splitAtMarks mark 0 rest = [] :: parts)
    (h : ∀ c tail, c :: tail <:+ part → mark (c :: (tail ++ rest)) = none) :
    splitAtMarks mark 0 (part ++ rest) = part :: parts := by
  induction part with
  | nil => exact hrest
  | cons c part ih =>
    rw [List.cons_append, splitAtMarks, h c part List.suffix_rfl,
      ih fun d tail hsuffix => h d tail (hsuffix.trans (List.suffix_cons c part))]
    rfl

end Split

namespace TradingView

/-! ## Decimal digits and `int` -/

/-- The zeros of the scripts; the digits of a script follow its zero. -/
def zeros : List ℕ :=
  [0x30, 0x660, 0x6f0, 0x7c0, 0x966, 0x9e6, 0xa66, 0xae6, 0xb66, 0xbe6, 0xc66, 0xce6, 0xd66,
   0xde6, 0xe50, 0xed0, 0xf20, 0x1040, 0x1090, 0x17e0, 0x1810, 0x1946, 0x19d0, 0x1a80, 0x1a90,
   0x1b50, 0x1bb0, 0x1c40, 0x1c50, 0xa620, 0xa8d0, 0xa900, 0xa9d0, 0xa9f0, 0xaa50, 0xabf0, 0xff10,
   0x104a0, 0x10d30, 0x11066, 0x110f0, 0x11136, 0x111d0, 0x112f0, 0x11450, 0x114d0, 0x11650,
   0x116c0, 0x11730, 0x118e0, 0x11950, 0x11c50, 0x11d50, 0x11da0, 0x16a60, 0x16ac0, 0x16b50,
   0x1d7ce, 0x1d7d8, 0x1d7e2, 0x1d7ec, 0x1d7f6, 0x1e140, 0x1e2f0, 0x1e950, 0x1fbf0]

def decimalValue? (c : Char) : Option ℕ :=
  (zeros.find? fun z => z ≤ c.toNat ∧ c.toNat < z + 10).map fun z => c.toNat - z

/-- A character that `\d` matches. -/
def isDecimal (c : Char) : Bool := (decimalValue? c).isSome

/-- The white space that `int` allows around a number. -/
def isBlank (c : Char) : Bool := Chars.isSpace c && !(28 ≤ c.toNat && c.toNat ≤ 31)

/-- Digits, with single underscores between them. -/
def readDigits : List Char → Option (List ℕ)
  | [] => none
  | [c] => (decimalValue? c).map fun d => [d]
  | c :: '_' :: cs => (decimalValue? c).bind fun d => (readDigits cs).map (d :: ·)
  | c :: c' :: cs => (decimalValue? c).bind fun d => (readDigits (c' :: cs)).map (d :: ·)

/-- `sys.int_info.default_max_str_digits`. -/
def maxDigits : ℕ := 4300

def ofDigits (ds : List ℕ) : ℕ := ds.foldl (fun n d => 10 * n + d) 0

def readNat (cs : List Char) : Option ℕ :=
  ((readDigits cs).filter fun ds => ds.length ≤ maxDigits).map ofDigits

/-- `int(text)`. -/
def readInt (text : List Char) : Option ℤ :=
  match ((text.dropWhile isBlank).reverse.dropWhile isBlank).reverse with
  | '-' :: cs => (readNat cs).map fun n : ℕ => -(n : ℤ)
  | '+' :: cs => (readNat cs).map Int.ofNat
  | cs => (readNat cs).map Int.ofNat

/-- `str(n)`. -/
def showInt (n : ℤ) : List Char :=
  (if n < 0 then ['-'] else []) ++ Nat.toDigits 10 n.natAbs

/-! ## Frames -/

/-- What surrounds the length of a packet. -/
def bar : List Char := ['~', 'm', '~']

/-- `format_packet`, of the text of a packet. -/
def formatPacket (body : List Char) : List Char :=
  bar ++ Nat.toDigits 10 body.length ++ bar ++ body

def afterBar? : List Char → Option (List Char)
  | '~' :: 'm' :: '~' :: rest => some rest
  | _ => none

/-- The length of the match of `~m~\d+~m~` at the start of a text. -/
def packetMark (cs : List Char) : Option ℕ :=
  (afterBar? cs).bind fun rest =>
    let digits := rest.takeWhile isDecimal
    if digits = [] then none
    else (afterBar? (rest.dropWhile isDecimal)).map fun _ => 3 + digits.length + 3

inductive Packet (J : Type) where
  | heartbeat (n : ℤ)
  | value (j : J)

/-- What a websocket delivers. -/
inductive RawFrame where
  | bytes (content : List UInt8)
  | text (content : List Char)
  | other

def maxFrameChars : ℕ := 2000000

section Reading

variable {J : Type} (loads : List Char → Option J)

/-- A packet; nothing for a text that is neither a heartbeat nor read by
`json.loads`. -/
def readPacket (part : List Char) : Option (Packet J) :=
  match part with
  | '~' :: 'h' :: '~' :: rest => (readInt rest).map .heartbeat
  | part => (loads part).map .value

/-- The packets of a text, and how many were dropped. -/
def packetsOf (text : List Char) : List (Packet J) × ℕ :=
  let parts := (splitAtMarks packetMark 0 text).filter (· ≠ [])
  (parts.filterMap (readPacket loads), parts.countP fun part => (readPacket loads part).isNone)

/-- `parse_frame`. -/
def parseFrame (raw : RawFrame) : Except String (List (Packet J) × ℕ) :=
  let read := fun text : List Char =>
    if maxFrameChars < text.length then
      .error s!"frame of {text.length} characters exceeds the cap"
    else .ok (packetsOf loads text)
  match raw with
  | .bytes content => read (Utf8.decodeReplace content)
  | .text content => read content
  | .other => .ok ([], 1)

/-- The reply to a heartbeat. -/
def replyTo (n : ℤ) : List Char := formatPacket (['~', 'h', '~'] ++ showInt n)

end Reading

/-! ## Packets are read back -/

theorem decimalValue?_digit {c : Char} (h : c.isDigit) :
    decimalValue? c = some (c.toNat - '0'.toNat) := by
  have hrange : 48 ≤ c.toNat ∧ c.toNat ≤ 57 := by
    simpa [Char.isDigit, UInt32.le_iff_toNat_le] using h
  rw [decimalValue?, zeros, List.find?_cons_of_pos (by simp; omega)]
  rfl

theorem isDigit_toDigits {n : ℕ} {c : Char} (h : c ∈ Nat.toDigits 10 n) : c.isDigit :=
  Nat.isDigit_of_mem_toDigits (by norm_num) (by norm_num) h

theorem packetMark_formatPacket (n : ℕ) (rest : List Char) :
    packetMark (bar ++ Nat.toDigits 10 n ++ bar ++ rest) =
      some (bar ++ Nat.toDigits 10 n ++ bar).length := by
  have hdigits : ∀ c ∈ Nat.toDigits 10 n, isDecimal c = true := fun c hc => by
    rw [isDecimal, decimalValue?_digit (isDigit_toDigits hc)]
    rfl
  have hbar : isDecimal '~' = false := by decide
  have htake : (Nat.toDigits 10 n ++ ('~' :: 'm' :: '~' :: rest)).takeWhile isDecimal =
      Nat.toDigits 10 n := by
    rw [List.takeWhile_append_of_pos hdigits, List.takeWhile_cons_of_neg (by simp [hbar]),
      List.append_nil]
  have hdrop : (Nat.toDigits 10 n ++ ('~' :: 'm' :: '~' :: rest)).dropWhile isDecimal =
      '~' :: 'm' :: '~' :: rest := by
    rw [List.dropWhile_append_of_pos hdigits, List.dropWhile_cons_of_neg (by simp [hbar])]
  simp only [packetMark, bar, List.cons_append, List.nil_append, List.append_assoc, afterBar?,
    Option.bind_some, htake, hdrop, if_neg Nat.toDigits_ne_nil, Option.map_some,
    List.length_cons, List.length_append, List.length_nil]
  congr 1
  omega

/-- No mark starts in a text without a bar, whatever packets follow it. -/
theorem packetMark_eq_none {body : List Char} (hbody : ¬ bar <:+: body)
    {bodies : List (List Char)} {c : Char} {tail : List Char} (h : c :: tail <:+ body) :
    packetMark (c :: (tail ++ bodies.flatMap formatPacket)) = none := by
  have hfollow : bodies.flatMap formatPacket = [] ∨
      ∃ more, bodies.flatMap formatPacket = '~' :: 'm' :: more := by
    rcases bodies with _ | ⟨b, bodies⟩
    · exact .inl rfl
    · exact .inr ⟨_, rfl⟩
  generalize bodies.flatMap formatPacket = follow at hfollow ⊢
  rcases hafter : afterBar? (c :: (tail ++ follow)) with _ | rest
  · rw [packetMark, hafter, Option.bind_none]
  · rw [packetMark, hafter, Option.bind_some]
    -- the bar ends past the body, before another bar
    have hshape : c :: (tail ++ follow) = '~' :: 'm' :: '~' :: rest := by
      unfold afterBar? at hafter
      split at hafter
      · rename_i heq
        rw [heq, Option.some.inj hafter]
      · cases hafter
    obtain ⟨rfl, htail⟩ := List.cons.inj hshape
    clear hshape hafter
    rcases tail with _ | ⟨m, _ | ⟨t, tail⟩⟩
    · rcases hfollow with rfl | ⟨more, rfl⟩
      · cases htail
      · exact absurd (List.cons.inj htail).1 (by decide)
    · rcases hfollow with rfl | ⟨more, rfl⟩
      · cases (List.cons.inj htail).2
      · have hrest : 'm' :: more = rest := (List.cons.inj (List.cons.inj htail).2).2
        have hm : isDecimal 'm' = false := by decide
        rw [← hrest, List.takeWhile_cons_of_neg (by simp [hm]), if_pos rfl]
    · obtain ⟨rfl, hmore⟩ := List.cons.inj htail
      obtain ⟨rfl, -⟩ := List.cons.inj hmore
      exact absurd ((List.prefix_append bar tail).isInfix.trans h.isInfix) hbody

/-- The parts of a frame are the texts its packets were made of. -/
theorem splitAtMarks_packets {bodies : List (List Char)} (h : ∀ body ∈ bodies, ¬ bar <:+: body) :
    splitAtMarks packetMark 0 (bodies.flatMap formatPacket) = [] :: bodies := by
  induction bodies with
  | nil => rfl
  | cons body bodies ih =>
    rw [List.forall_mem_cons] at h
    rw [List.flatMap_cons, formatPacket, List.append_assoc,
      splitAtMarks_mark packetMark (by simp [bar]) (packetMark_formatPacket _ _),
      splitAtMarks_append packetMark (ih h.2) fun c tail hsuffix =>
        packetMark_eq_none h.1 hsuffix]

theorem packetsOf_packets {J : Type} (loads : List Char → Option J) {bodies : List (List Char)}
    (h : ∀ body ∈ bodies, body ≠ [] ∧ ¬ bar <:+: body) :
    packetsOf loads (bodies.flatMap formatPacket) =
      (bodies.filterMap (readPacket loads),
        bodies.countP fun body => (readPacket loads body).isNone) := by
  have hfilter : ([] :: bodies).filter (· ≠ []) = bodies := by
    rw [List.filter_cons_of_neg (by simp)]
    exact List.filter_eq_self.mpr fun body hbody => by simpa using (h body hbody).1
  simp only [packetsOf, splitAtMarks_packets fun body hbody => (h body hbody).2, hfilter]

/-- A frame of packets is read packet by packet: each one gives what its own
text says, in order, and the ones that cannot be read are counted and change
nothing for the others. -/
theorem parseFrame_packets {J : Type} (loads : List Char → Option J)
    (bodies : List (List Char)) (hbodies : ∀ body ∈ bodies, body ≠ [] ∧ ¬ bar <:+: body)
    (hlength : (bodies.flatMap formatPacket).length ≤ maxFrameChars) :
    parseFrame loads (.text (bodies.flatMap formatPacket)) =
      .ok (bodies.filterMap (readPacket loads),
        bodies.countP fun body => (readPacket loads body).isNone) := by
  simp only [parseFrame, if_neg (not_lt.mpr hlength), packetsOf_packets loads hbodies]

/-- `json.loads` on an empty object. -/
def loadsEmpty (text : List Char) : Option Unit := if text = ['{', '}'] then some () else none

theorem parseFrame_packets_three :
    parseFrame loadsEmpty (.text ("~m~4~m~~h~7~m~1~m~x~m~2~m~\x7b\x7d".toList)) =
      .ok ([.heartbeat 7, .value ()], 1) :=
  parseFrame_packets loadsEmpty [['~', 'h', '~', '7'], ['x'], ['{', '}']] (by decide) (by decide)

/-! ## Heartbeats are answered -/

theorem lt_of_decimalValue? {c : Char} {d : ℕ} (h : decimalValue? c = some d) : d < 10 := by
  rw [decimalValue?, Option.map_eq_some_iff] at h
  obtain ⟨z, hz, rfl⟩ := h
  have hrange := List.find?_some hz
  simp only [decide_eq_true_eq] at hrange
  omega

theorem lt_of_mem_readDigits {cs : List Char} {ds : List ℕ} (h : readDigits cs = some ds) :
    ∀ d ∈ ds, d < 10 := by
  fun_induction readDigits cs generalizing ds with
  | case1 => cases h
  | case2 c =>
    obtain ⟨d, hd, rfl⟩ := Option.map_eq_some_iff.mp h
    simpa using lt_of_decimalValue? hd
  | case3 c cs ih =>
    obtain ⟨d, hd, hds⟩ := Option.bind_eq_some_iff.mp h
    obtain ⟨tail, htail, rfl⟩ := Option.map_eq_some_iff.mp hds
    exact List.forall_mem_cons.mpr ⟨lt_of_decimalValue? hd, ih htail⟩
  | case4 c c' cs hne ih =>
    obtain ⟨d, hd, hds⟩ := Option.bind_eq_some_iff.mp h
    obtain ⟨tail, htail, rfl⟩ := Option.map_eq_some_iff.mp hds
    exact List.forall_mem_cons.mpr ⟨lt_of_decimalValue? hd, ih htail⟩

theorem foldl_digits_lt {ds : List ℕ} (h : ∀ d ∈ ds, d < 10) (n : ℕ) :
    ds.foldl (fun n d => 10 * n + d) n < (n + 1) * 10 ^ ds.length := by
  induction ds generalizing n with
  | nil => simp
  | cons d ds ih =>
    rw [List.forall_mem_cons] at h
    calc
      ds.foldl (fun n d => 10 * n + d) (10 * n + d) < (10 * n + d + 1) * 10 ^ ds.length :=
        ih h.2 _
      _ ≤ ((n + 1) * 10) * 10 ^ ds.length := Nat.mul_le_mul_right _ (by omega)
      _ = (n + 1) * 10 ^ (d :: ds).length := by rw [List.length_cons, pow_succ]; ring

theorem lt_of_readNat {cs : List Char} {n : ℕ} (h : readNat cs = some n) :
    n < 10 ^ maxDigits := by
  rw [readNat, Option.map_eq_some_iff] at h
  obtain ⟨ds, hds, rfl⟩ := h
  rw [Option.filter_eq_some_iff, decide_eq_true_iff] at hds
  have hbound := foldl_digits_lt (lt_of_mem_readDigits hds.1) 0
  rw [zero_add, one_mul] at hbound
  exact hbound.trans_le (Nat.pow_le_pow_right (by norm_num) hds.2)

theorem natAbs_lt_of_readInt {text : List Char} {n : ℤ} (h : readInt text = some n) :
    n.natAbs < 10 ^ maxDigits := by
  unfold readInt at h
  split at h
  all_goals
    obtain ⟨m, hm, rfl⟩ := Option.map_eq_some_iff.mp h
    simpa using lt_of_readNat hm

theorem readDigits_digits {cs : List Char} (hne : cs ≠ []) (h : ∀ c ∈ cs, c.isDigit) :
    readDigits cs = some (cs.map fun c => c.toNat - '0'.toNat) := by
  fun_induction readDigits cs with
  | case1 => exact absurd rfl hne
  | case2 c => simp [decimalValue?_digit (h c (by simp))]
  | case3 c cs ih => exact absurd (h '_' (by simp)) (by decide)
  | case4 c c' cs hunder ih =>
    rw [List.forall_mem_cons] at h
    rw [decimalValue?_digit h.1, Option.bind_some, ih (List.cons_ne_nil _ _) h.2]
    rfl

theorem readNat_toDigits {n : ℕ} (h : n < 10 ^ maxDigits) :
    readNat (Nat.toDigits 10 n) = some n := by
  have hlength := Nat.toDigits_length 10 n maxDigits (by decide) h
  rw [readNat, readDigits_digits Nat.toDigits_ne_nil fun c => isDigit_toDigits,
    Option.filter_some, if_pos (by simpa using hlength), Option.map_some, ofDigits,
    List.foldl_map, ← Nat.ofDigitChars_eq_foldl,
    Nat.ofDigitChars_toDigits (by norm_num) (by norm_num)]

theorem trim_eq_self {text : List Char} (h : ∀ c ∈ text, isBlank c = false) :
    ((text.dropWhile isBlank).reverse.dropWhile isBlank).reverse = text := by
  have hdrop : ∀ cs : List Char, (∀ c ∈ cs, isBlank c = false) → cs.dropWhile isBlank = cs := by
    intro cs hcs
    rcases cs with _ | ⟨c, cs⟩
    · rfl
    · rw [List.dropWhile_cons_of_neg (by simp [hcs c (by simp)])]
  rw [hdrop text h, hdrop _ fun c hc => h c (List.mem_reverse.mp hc), List.reverse_reverse]

theorem mem_showInt {n : ℤ} {c : Char} (h : c ∈ showInt n) : c = '-' ∨ c.isDigit := by
  rw [showInt, List.mem_append] at h
  rcases h with hsign | hdigit
  · split_ifs at hsign
    · exact .inl (List.mem_singleton.mp hsign)
    · cases hsign
  · exact .inr (isDigit_toDigits hdigit)

theorem readInt_showInt {n : ℤ} (h : n.natAbs < 10 ^ maxDigits) :
    readInt (showInt n) = some n := by
  have hblank : ∀ c ∈ showInt n, isBlank c = false := by
    intro c hc
    rcases mem_showInt hc with rfl | hdigit
    · decide
    · have hrange : 48 ≤ c.toNat ∧ c.toNat ≤ 57 := by
        simpa [Char.isDigit, UInt32.le_iff_toNat_le] using hdigit
      simp only [isBlank, Chars.isSpace, Bool.and_eq_false_iff, Bool.or_eq_false_iff,
        decide_eq_false_iff_not]
      omega
  rw [readInt, trim_eq_self hblank]
  have hread := readNat_toDigits h
  by_cases hneg : n < 0
  · simp only [showInt, if_pos hneg, List.cons_append, List.nil_append, hread, Option.map_some,
      Option.some.injEq]
    omega
  · have hshow : showInt n = Nat.toDigits 10 n.natAbs := by simp [showInt, hneg]
    have hdigit : ∀ c ∈ Nat.toDigits 10 n.natAbs, c.isDigit := fun c => isDigit_toDigits
    rw [hshow]
    split
    · rename_i heq
      exact absurd (hdigit '-' (by rw [heq]; simp)) (by decide)
    · rename_i heq
      exact absurd (hdigit '+' (by rw [heq]; simp)) (by decide)
    · rw [hread, Option.map_some]
      congr 1
      simp only [Int.ofNat_eq_natCast]
      omega

/-- The reply to a heartbeat of any frame is read as that heartbeat and nothing
else. -/
theorem parseFrame_replyTo {J : Type} (loads : List Char → Option J) {raw : RawFrame}
    {packets : List (Packet J)} {dropped : ℕ} {n : ℤ}
    (h : parseFrame loads raw = .ok (packets, dropped)) (hn : .heartbeat n ∈ packets) :
    parseFrame loads (.text (replyTo n)) = .ok ([.heartbeat n], 0) := by
  obtain ⟨part, hpart⟩ : ∃ part, readPacket loads part = some (.heartbeat n) := by
    have hparts : ∀ text, (.ok (packetsOf loads text) : Except String _) = .ok (packets, dropped) →
        ∃ part, readPacket loads part = some (.heartbeat n) := by
      intro text htext
      rw [← show (packetsOf loads text).1 = packets from
        congrArg Prod.fst (Except.ok.inj htext)] at hn
      obtain ⟨part, -, hpart⟩ := List.mem_filterMap.mp hn
      exact ⟨part, hpart⟩
    cases raw with
    | bytes content =>
      simp only [parseFrame] at h
      split_ifs at h
      exact hparts _ h
    | text content =>
      simp only [parseFrame] at h
      split_ifs at h
      exact hparts _ h
    | other =>
      simp only [parseFrame, Except.ok.injEq, Prod.mk.injEq] at h
      rw [← h.1] at hn
      cases hn
  have hbound : n.natAbs < 10 ^ maxDigits := by
    unfold readPacket at hpart
    split at hpart
    · obtain ⟨m, hm, hmn⟩ := Option.map_eq_some_iff.mp hpart
      cases hmn
      exact natAbs_lt_of_readInt hm
    · obtain ⟨m, -, hmn⟩ := Option.map_eq_some_iff.mp hpart
      cases hmn
  have hm : 'm' ∉ ['~', 'h', '~'] ++ showInt n := by
    rw [List.mem_append, not_or]
    refine ⟨by decide, fun hshow => ?_⟩
    rcases mem_showInt hshow with heq | hdigit
    · exact absurd heq (by decide)
    · exact absurd hdigit (by decide)
  have hlength : (showInt n).length ≤ maxDigits + 1 := by
    have hdigits := Nat.toDigits_length 10 n.natAbs maxDigits (by decide) hbound
    rw [showInt, List.length_append]
    split_ifs
    · simp only [List.length_singleton]
      omega
    · simp only [List.length_nil]
      omega
  have hcount := Nat.toDigits_length 10 (['~', 'h', '~'] ++ showInt n).length 4 (by decide) (by
    simp only [List.length_append, List.length_cons, List.length_nil, maxDigits] at hlength ⊢
    omega)
  have hread := @packetsOf_packets J loads [['~', 'h', '~'] ++ showInt n] fun body hbody => by
    rw [List.mem_singleton.mp hbody]
    exact ⟨by simp, fun hbar => hm (hbar.subset (by simp [bar]))⟩
  have hfits : (replyTo n).length ≤ maxFrameChars := by
    simp only [replyTo, formatPacket, bar, List.length_append, List.length_cons,
      List.length_nil, maxDigits, maxFrameChars] at hlength hcount ⊢
    omega
  rw [List.flatMap_singleton] at hread
  simp only [parseFrame, if_neg (not_lt.mpr hfits)]
  rw [replyTo, hread]
  simp [readPacket, readInt_showInt hbound]

/-- A number in Arabic-Indic digits, behind an empty body, is answered in plain ones. -/
theorem parseFrame_replyTo_scripts :
    parseFrame loadsEmpty (.text "~m~0~m~~m~7~m~~h~٤٢٧0".toList) = .ok ([.heartbeat 4270], 0) ∧
      parseFrame loadsEmpty (.text (replyTo 4270)) = .ok ([.heartbeat 4270], 0) := by
  have hread : parseFrame loadsEmpty (.text "~m~0~m~~m~7~m~~h~٤٢٧0".toList) =
      .ok ([.heartbeat 4270], 0) := rfl
  exact ⟨hread, parseFrame_replyTo loadsEmpty hread List.mem_cons_self⟩

/-! ## Bars -/

open Reference (Raw price)

/-- A bar of the chart; one whose prices are out of order cannot be built. -/
structure Bar where
  tSec : ℤ
  openPrice : ℚ
  high : ℚ
  low : ℚ
  close : ℚ
  volume : ℚ
  low_pos : 0 < low
  low_le : low ≤ min openPrice close
  le_high : max openPrice close ≤ high
  volume_nonneg : 0 ≤ volume

/-- `int(x)` of a number. -/
def truncate (x : ℚ) : ℤ := if 0 ≤ x then ⌊x⌋ else ⌈x⌉

/-- A row of a series, if it is a bar. -/
def barOf : List Raw → Option Bar
  | t :: o :: h :: l :: c :: rest =>
      t.number.bind fun t => (price o).bind fun o => (price h).bind fun h =>
        (price l).bind fun l => (price c).bind fun c =>
          let volume := ((rest.head?.bind Raw.number).getD 0)
          -- the first condition holds of every price
          if hbar : 0 < l ∧ l ≤ min o c ∧ max o c ≤ h then
            some ⟨truncate t, o, h, l, c, max 0 volume, hbar.1, hbar.2.1, hbar.2.2,
              le_max_left _ _⟩
          else none
  | _ => none

/-- `_collect_bars`: a later row of a time replaces the earlier one. -/
def collectBars (target : Dict ℤ Bar) (rows : List (List Raw)) : Dict ℤ Bar :=
  (rows.filterMap barOf).foldl (fun d b => d.set b.tSec b) target

/-- `MAX_BARS` and `BATCH_BARS`. -/
def maxBars : ℕ := 20000

def batchBars : ℕ := 5000

/-- A packet of the session, as far as the bars go. -/
inductive ChartPacket where
  | rows (rows : List (List Raw))
  | completed
  | failed (reason : String)
  | other

/-- What the wait for a frame ends in. -/
inductive Received where
  | frame (packets : List ChartPacket)
  | timeout
  | lost (reason : String)

/-- A session: the bars so far, those there were when the round began, and what
has been asked for, the last round first. -/
structure ChartSession where
  bars : Dict ℤ Bar := .empty
  roundStart : ℕ := 0
  asked : ℕ
  earlier : List ℕ := []

inductive Progress where
  | waiting (s : ChartSession)
  | finished (bars : Dict ℤ Bar)
  | error (reason : String)

/-- The bars that a session has, unless it failed. -/
def Progress.bars? : Progress → Option (Dict ℤ Bar)
  | .waiting s => some s.bars
  | .finished bars => some bars
  | .error _ => none

namespace ChartSession

variable (count : ℕ)

/-- The session after the first request. -/
def start : ChartSession := { asked := min count batchBars }

/-- The packets of a frame, up to the first that reports an error. -/
def readFrame (s : ChartSession) (completed : Bool) :
    List ChartPacket → Except String (ChartSession × Bool)
  | [] => .ok (s, completed)
  | .rows rows :: rest => readFrame { s with bars := collectBars s.bars rows } completed rest
  | .completed :: rest => readFrame s true rest
  | .failed reason :: _ => .error reason
  | .other :: rest => readFrame s completed rest

/-- Another round is asked for while the last one brought what it asked for. -/
def endRound (s : ChartSession) : Progress :=
  let size := s.bars.items.length
  if count ≤ size ∨ size - s.roundStart < s.asked then .finished s.bars
  else
    .waiting
      { s with
        roundStart := size
        asked := min batchBars (count - size)
        earlier := s.asked :: s.earlier }

def receive (s : ChartSession) : Received → Progress
  | .timeout => .waiting s
  | .lost reason => .error reason
  | .frame packets =>
      match s.readFrame false packets with
      | .error reason => .error reason
      | .ok (s, completed) => if completed then s.endRound count else .waiting s

/-- The session as far as what was received takes it. -/
def run (s : ChartSession) : List Received → Progress
  | [] => .waiting s
  | r :: rest =>
      match s.receive count r with
      | .waiting s => run s rest
      | ended => ended

end ChartSession

/-- The bars of `fetch_bars`: ordered, without the one still forming, and the
last `count` of them; and how many were dropped. -/
def settleBars (bars : Dict ℤ Bar) (count : ℕ) (span : ℤ) (includeIncomplete : Bool) (now : ℚ) :
    List Bar × ℕ :=
  let ordered := bars.values.insertionSort fun b c => b.tSec ≤ c.tSec
  let closed :=
    if includeIncomplete then ordered else ordered.rdropWhile fun b => now < b.tSec + span
  (closed.drop (closed.length - count), ordered.length - closed.length)

/-- `fetch_bars`, once the first request is sent. -/
def fetchBars (count : ℤ) (span : ℤ) (includeIncomplete : Bool) (now : ℚ)
    (received : List Received) : Option (List Bar × ℕ) :=
  let count := (max 1 (min count maxBars)).toNat
  match (ChartSession.start count).run count received with
  | .finished bars => some (settleBars bars count span includeIncomplete now)
  | _ => none

/-! ## What a session asks for -/

namespace ChartSession

variable {count : ℕ}

/-- No more is asked for than what is missing, and every round before brought
what it asked for. -/
structure Within (count : ℕ) (s : ChartSession) : Prop where
  brought : s.earlier.sum ≤ s.roundStart
  begun : s.roundStart ≤ s.bars.items.length
  asked_pos : 0 < s.asked
  asked_le : s.asked ≤ batchBars
  missing : s.roundStart + s.asked ≤ count
  earlier_pos : ∀ n ∈ s.earlier, 0 < n

theorem within_start (h : 0 < count) : (start count).Within count where
  brought := le_rfl
  begun := le_rfl
  asked_pos := lt_min h (by decide)
  asked_le := min_le_right _ _
  missing := by rw [show (start count).roundStart = 0 from rfl, zero_add]; exact min_le_left _ _
  earlier_pos := by simp [start]

theorem length_le_set (d : Dict ℤ Bar) (k : ℤ) (b : Bar) :
    d.items.length ≤ (d.set k b).items.length := by
  have hkeys : ∀ d : Dict ℤ Bar, d.items.length = d.keys.length := fun d => by
    rw [Dict.keys, List.length_map]
  rw [hkeys, hkeys]
  by_cases h : k ∈ d.keys
  · rw [Dict.keys_set_of_mem h]
  · rw [Dict.keys_set_of_notMem h, List.length_append]
    omega

theorem length_le_collectBars (target : Dict ℤ Bar) (rows : List (List Raw)) :
    target.items.length ≤ (collectBars target rows).items.length := by
  rw [collectBars]
  induction rows.filterMap barOf generalizing target with
  | nil => exact le_rfl
  | cons b bs ih => exact (length_le_set target b.tSec b).trans (ih _)

theorem within_readFrame {s s' : ChartSession} {completed completed' : Bool}
    {packets : List ChartPacket} (hs : s.Within count)
    (h : s.readFrame completed packets = .ok (s', completed')) : s'.Within count := by
  fun_induction readFrame s completed packets with
  | case1 s completed =>
    cases h
    exact hs
  | case2 s completed rows rest ih =>
    exact ih { hs with begun := hs.begun.trans (length_le_collectBars _ _) } h
  | case3 s completed rest ih => exact ih hs h
  | case4 s completed reason rest => cases h
  | case5 s completed rest ih => exact ih hs h

theorem within_endRound {s s' : ChartSession} (hs : s.Within count)
    (h : s.endRound count = .waiting s') : s'.Within count := by
  rw [endRound] at h
  split_ifs at h with hdone
  cases h
  obtain ⟨hsize, hround⟩ := not_or.mp hdone
  have hbegun := hs.begun
  have hbrought := hs.brought
  exact
    { brought := by simp only [List.sum_cons]; omega
      begun := le_rfl
      asked_pos := lt_min (by decide) (by omega)
      asked_le := min_le_left _ _
      missing := by
        have hmin := min_le_right batchBars (count - s.bars.items.length)
        simp only
        omega
      earlier_pos := List.forall_mem_cons.mpr ⟨hs.asked_pos, hs.earlier_pos⟩ }

theorem within_receive {s s' : ChartSession} {r : Received} (hs : s.Within count)
    (h : s.receive count r = .waiting s') : s'.Within count := by
  cases r with
  | timeout =>
    cases h
    exact hs
  | lost reason => cases h
  | frame packets =>
    simp only [receive] at h
    split at h
    · cases h
    · rename_i s₁ completed hread
      have hwithin := within_readFrame hs hread
      split_ifs at h
      · exact within_endRound hwithin h
      · cases h
        exact hwithin

theorem within_run {s s' : ChartSession} {received : List Received} (hs : s.Within count)
    (h : s.run count received = .waiting s') : s'.Within count := by
  induction received generalizing s with
  | nil =>
    cases h
    exact hs
  | cons r received ih =>
    rw [run] at h
    split at h
    · rename_i s₁ hreceive
      exact ih (within_receive hs hreceive) h
    · rename_i hended
      exact absurd h (hended s')

end ChartSession

/-- Whatever the venue sends, a session never asks for more bars than it was
called for, nor for more than a batch at a time, and makes at most that many
requests. -/
theorem requested_le {count : ℕ} (hcount : 0 < count) {received : List Received}
    {s : ChartSession} (h : (ChartSession.start count).run count received = .waiting s) :
    (s.asked :: s.earlier).sum ≤ count ∧ s.asked ≤ batchBars ∧
      (s.asked :: s.earlier).length ≤ count := by
  have hs := ChartSession.within_run (ChartSession.within_start hcount) h
  have hbrought := hs.brought
  have hmissing := hs.missing
  have hsum : (s.asked :: s.earlier).sum ≤ count := by
    rw [List.sum_cons]
    omega
  have hpos : ∀ n ∈ s.asked :: s.earlier, 1 ≤ n :=
    List.forall_mem_cons.mpr ⟨hs.asked_pos, hs.earlier_pos⟩
  have hlength := List.length_le_sum_of_one_le _ hpos
  exact ⟨hsum, hs.asked_le, hlength.trans hsum⟩

def minuteRow (t close : ℚ) : List Raw :=
  [⟨some t, ""⟩, ⟨some 2, ""⟩, ⟨some 4, ""⟩, ⟨some 1, ""⟩, ⟨some close, ""⟩]

/-- Two frames of a first round, of the two that thousands of bars take. -/
theorem requested_le_firstRound :
    ∃ s, (ChartSession.start 6000).run 6000
        [.timeout, .frame [.other, .rows [minuteRow 60 3, minuteRow 120 2]],
          .frame [.rows [minuteRow 0 2, minuteRow 60 2]]] = .waiting s ∧
      s.bars.items.length = 3 ∧ (s.asked :: s.earlier).sum ≤ 6000 ∧ s.asked ≤ 5000 := by
  refine ⟨_, rfl, by decide +kernel, ?_⟩
  exact (@requested_le 6000 (by decide)
    [.timeout, .frame [.other, .rows [minuteRow 60 3, minuteRow 120 2]],
      .frame [.rows [minuteRow 0 2, minuteRow 60 2]]] _ rfl).imp_right And.left

/-! ## What a session returns -/

/-- The bars of what was received, in order. -/
def barsIn (received : List Received) : List Bar :=
  received.flatMap fun r =>
    match r with
    | .frame packets =>
        packets.flatMap fun p =>
          match p with
          | .rows rows => rows.filterMap barOf
          | _ => []
    | _ => []

/-- The bars that a list of deliveries leaves, the last one of each time. -/
def keepLast (target : Dict ℤ Bar) (delivered : List Bar) : Dict ℤ Bar :=
  delivered.foldl (fun d b => d.set b.tSec b) target

namespace ChartSession

variable {count : ℕ}

theorem bars_readFrame {s s' : ChartSession} {completed completed' : Bool}
    {packets : List ChartPacket} (h : s.readFrame completed packets = .ok (s', completed')) :
    s'.bars = keepLast s.bars (barsIn [.frame packets]) := by
  simp only [barsIn, List.flatMap_cons, List.flatMap_nil, List.append_nil]
  fun_induction readFrame s completed packets with
  | case1 s completed =>
    cases h
    rfl
  | case2 s completed rows rest ih =>
    rw [ih h, List.flatMap_cons, keepLast, keepLast, List.foldl_append]
    rfl
  | case3 s completed rest ih => exact ih h
  | case4 s completed reason rest => cases h
  | case5 s completed rest ih => exact ih h

theorem barsIn_cons (r : Received) (received : List Received) :
    barsIn (r :: received) = barsIn [r] ++ barsIn received := by
  simp only [barsIn, List.flatMap_cons, List.flatMap_nil, List.append_nil]

theorem bars_endRound (s : ChartSession) : (s.endRound count).bars? = some s.bars := by
  rw [endRound]
  split_ifs <;> rfl

theorem bars_receive {s : ChartSession} {r : Received} {bars : Dict ℤ Bar}
    (h : (s.receive count r).bars? = some bars) : bars = keepLast s.bars (barsIn [r]) := by
  cases r with
  | timeout =>
    cases h
    rfl
  | lost reason => cases h
  | frame packets =>
    simp only [receive] at h
    split at h
    · cases h
    · rename_i s₁ completed hread
      rw [← bars_readFrame hread]
      split_ifs at h
      · rw [bars_endRound] at h
        exact (Option.some.inj h).symm
      · exact (Option.some.inj h).symm

theorem completed_of_readFrame {s s' : ChartSession} {completed : Bool}
    {packets : List ChartPacket} (h : s.readFrame completed packets = .ok (s', true)) :
    completed = true ∨ .completed ∈ packets := by
  fun_induction readFrame s completed packets with
  | case1 s completed =>
    cases h
    exact Or.inl rfl
  | case2 s completed rows rest ih => exact (ih h).imp_right (List.mem_cons_of_mem _)
  | case3 s completed rest ih => exact Or.inr List.mem_cons_self
  | case4 s completed reason rest => cases h
  | case5 s completed rest ih => exact (ih h).imp_right (List.mem_cons_of_mem _)

/-- Only a frame with the end of the series ends a session. -/
theorem completed_of_receive {s : ChartSession} {r : Received} {bars : Dict ℤ Bar}
    (h : s.receive count r = .finished bars) :
    ∃ packets, r = .frame packets ∧ .completed ∈ packets := by
  cases r with
  | timeout => cases h
  | lost reason => cases h
  | frame packets =>
    simp only [receive] at h
    split at h
    · cases h
    · rename_i s₁ completed hread
      split_ifs at h with hcompleted
      rw [hcompleted] at hread
      exact ⟨packets, rfl, (completed_of_readFrame hread).resolve_left Bool.false_ne_true⟩

/-- The bars of a session that has finished are those of all it read, up to the frame
that ended it. -/
theorem bars_run {s : ChartSession} {received : List Received} {bars : Dict ℤ Bar}
    (h : s.run count received = .finished bars) :
    ∃ before packets rest s', received = before ++ .frame packets :: rest ∧
      s.run count before = .waiting s' ∧ .completed ∈ packets ∧
      bars = keepLast s.bars (barsIn (before ++ [.frame packets])) := by
  induction received generalizing s with
  | nil => cases h
  | cons r received ih =>
    rw [run] at h
    split at h
    · rename_i s₁ hreceive
      obtain ⟨before, packets, rest, s', rfl, hbefore, hcompleted, rfl⟩ := ih h
      refine ⟨r :: before, packets, rest, s', rfl, ?_, hcompleted, ?_⟩
      · rw [run, hreceive]
        exact hbefore
      · rw [bars_receive (show _ = some s₁.bars by rw [hreceive]; rfl), List.cons_append,
          barsIn_cons r (before ++ _), keepLast, keepLast, keepLast, List.foldl_append]
    · obtain ⟨packets, rfl, hcompleted⟩ := completed_of_receive h
      exact ⟨[], packets, received, s, rfl, rfl, hcompleted, bars_receive (by rw [h]; rfl)⟩

end ChartSession

/-- A bar is the last one delivered of its time. -/
def Standing (delivered : List Bar) (b : Bar) : Prop :=
  ∃ before after, delivered = before ++ b :: after ∧ ∀ b' ∈ after, b'.tSec ≠ b.tSec

section Settled

variable (delivered : List Bar)

theorem keepLast_eq : keepLast .empty delivered =
    .ofEntries (delivered.map fun b => (b.tSec, b)) := by
  rw [keepLast, Dict.ofEntries, List.foldl_map]

theorem mem_values_keepLast {b : Bar} :
    b ∈ (keepLast .empty delivered).values ↔ Standing delivered b := by
  rw [Dict.mem_values_iff, keepLast_eq]
  constructor
  · rintro ⟨t, ht⟩
    obtain ⟨before, after, hsplit, hafter⟩ := Dict.get?_ofEntries_eq_some_last.mp ht
    obtain ⟨before', tail, rfl, -, htail⟩ := List.map_eq_append_iff.mp hsplit
    obtain ⟨b', after', rfl, hb, rfl⟩ := List.map_eq_cons_iff.mp htail
    cases hb
    refine ⟨before', after', rfl, fun b' hb' heq => hafter ?_⟩
    rw [List.map_map]
    exact List.mem_map.mpr ⟨b', hb', heq⟩
  · rintro ⟨before, after, rfl, hafter⟩
    refine ⟨b.tSec, Dict.get?_ofEntries_eq_some_last.mpr
      ⟨before.map fun b => (b.tSec, b), after.map fun b => (b.tSec, b), by simp, ?_⟩⟩
    simpa using hafter

theorem nodup_times : ((keepLast .empty delivered).values.map Bar.tSec).Nodup := by
  have hkey : ∀ kb ∈ (keepLast .empty delivered).items, kb.2.tSec = kb.1 := by
    intro kb hkb
    have hget := (Dict.mem_items_iff _ kb.1 kb.2).mp hkb
    rw [keepLast_eq, Dict.get?_ofEntries_eq_some_last] at hget
    obtain ⟨before, after, hsplit, -⟩ := hget
    have hmem : (kb.1, kb.2) ∈ delivered.map fun b => (b.tSec, b) := by
      rw [hsplit]
      simp
    obtain ⟨b, -, hb⟩ := List.mem_map.mp hmem
    rw [← (Prod.ext_iff.mp hb).1, ← (Prod.ext_iff.mp hb).2]
  have hmap : (keepLast .empty delivered).values.map Bar.tSec =
      (keepLast .empty delivered).items.map Prod.fst := by
    rw [Dict.values, List.map_map]
    exact List.map_congr_left hkey
  rw [hmap]
  exact (keepLast .empty delivered).nodup

/-- The bars that stand, oldest first. -/
def orderedBars : List Bar :=
  (keepLast .empty delivered).values.insertionSort fun b c => b.tSec ≤ c.tSec

variable {delivered}

theorem mem_orderedBars {b : Bar} : b ∈ orderedBars delivered ↔ Standing delivered b :=
  (List.mem_insertionSort _).trans (mem_values_keepLast delivered)

theorem pairwise_orderedBars : (orderedBars delivered).Pairwise fun b c => b.tSec < c.tSec := by
  have hsorted : (orderedBars delivered).Pairwise fun b c => b.tSec ≤ c.tSec :=
    List.pairwise_insertionSort _ _
  have hnodup : (orderedBars delivered).Pairwise fun b c => b.tSec ≠ c.tSec := by
    have hperm := (List.perm_insertionSort (fun b c : Bar => b.tSec ≤ c.tSec)
      (keepLast .empty delivered).values).map Bar.tSec
    exact List.pairwise_map.mp (hperm.nodup_iff.mpr (nodup_times delivered))
  exact (hsorted.and hnodup).imp fun h => lt_of_le_of_ne h.1 h.2

/-- Once the bars still forming are dropped at the end, none of them is left. -/
theorem closed_of_mem_rdropWhile {bars : List Bar} {span : ℤ} {now : ℚ}
    (h : bars.Pairwise fun b c => b.tSec < c.tSec) {b : Bar}
    (hb : b ∈ bars.rdropWhile fun b => now < b.tSec + span) : (b.tSec : ℚ) + span ≤ now := by
  have hne := List.ne_nil_of_mem hb
  have hlast := List.rdropWhile_last_not _ _ hne
  rw [decide_eq_true_eq, not_lt] at hlast
  have hle : b.tSec ≤ ((bars.rdropWhile fun b => now < b.tSec + span).getLast hne).tSec := by
    have hpair : (bars.rdropWhile fun b => now < b.tSec + span).Pairwise fun b c =>
        b.tSec < c.tSec := h.sublist (List.rdropWhile_prefix _ _).sublist
    rw [← List.dropLast_append_getLast hne] at hb hpair
    rcases List.mem_append.mp hb with hinit | hend
    · exact ((List.pairwise_append.mp hpair).2.2 b hinit _ (List.mem_singleton_self _)).le
    · rw [List.mem_singleton.mp hend]
  have hcast : (b.tSec : ℚ) ≤
      ((bars.rdropWhile fun b => now < b.tSec + span).getLast hne).tSec := by
    exact_mod_cast hle
  linarith

/-- A closed bar is not dropped. -/
theorem mem_rdropWhile_of_closed {bars : List Bar} {span : ℤ} {now : ℚ} {b : Bar} (hb : b ∈ bars)
    (h : (b.tSec : ℚ) + span ≤ now) : b ∈ bars.rdropWhile fun b => now < b.tSec + span := by
  rw [← @List.rdropWhile_append_rtakeWhile _ (fun b : Bar => decide (now < b.tSec + span)) bars,
    List.mem_append] at hb
  rcases hb with hkept | hdropped
  · exact hkept
  · have hforming := List.mem_rtakeWhile_imp hdropped
    exact absurd (of_decide_eq_true hforming) (not_lt.mpr h)

end Settled

/-- What a session returns, whatever the venue sends and however it divides it, of
all that was delivered up to the frame that ended it: the last bar of each of its
times, oldest first and at most as many as were asked for, none of them still forming
unless those are wanted, and no closed one left out that is not older than all of
them. -/
theorem fetchBars_spec {count span : ℤ} {includeIncomplete : Bool} {now : ℚ}
    {received : List Received} {result : List Bar} {dropped : ℕ}
    (h : fetchBars count span includeIncomplete now received = some (result, dropped)) :
    let size := (max 1 (min count maxBars)).toNat
    ∃ before packets rest s, received = before ++ .frame packets :: rest ∧
      (ChartSession.start size).run size before = .waiting s ∧ .completed ∈ packets ∧
      let delivered := barsIn (before ++ [.frame packets])
      (∀ b ∈ result, Standing delivered b ∧
        (includeIncomplete = false → (b.tSec : ℚ) + span ≤ now)) ∧
      result.Pairwise (fun b c => b.tSec < c.tSec) ∧
      result.length ≤ size ∧
      ∀ b, Standing delivered b → (includeIncomplete = true ∨ (b.tSec : ℚ) + span ≤ now) →
        ∀ first ∈ result.head?, first.tSec ≤ b.tSec → b ∈ result := by
  rw [fetchBars] at h
  split at h
  on_goal 2 => cases h
  rename_i bars hrun
  intro size
  obtain ⟨before, packets, rest, s, hreceived, hbefore, hcompleted, rfl⟩ :=
    ChartSession.bars_run hrun
  refine ⟨before, packets, rest, s, hreceived, hbefore, hcompleted, ?_⟩
  intro delivered
  have hordered : (orderedBars delivered).Pairwise fun b c => b.tSec < c.tSec :=
    pairwise_orderedBars
  obtain ⟨closed, hclosed⟩ : ∃ closed, closed = if includeIncomplete then orderedBars delivered
    else (orderedBars delivered).rdropWhile fun b => now < b.tSec + span := ⟨_, rfl⟩
  have hresult : closed.drop (closed.length - size) = result := by
    rw [hclosed]
    exact (Prod.ext_iff.mp (Option.some.inj h)).1
  have hsub : closed.Sublist (orderedBars delivered) := by
    rw [hclosed]
    split_ifs
    · exact List.Sublist.refl _
    · exact (List.rdropWhile_prefix _ _).sublist
  have hmem : ∀ b ∈ result, b ∈ closed := fun b hb => List.mem_of_mem_drop (hresult ▸ hb)
  have hpair := hordered.sublist hsub
  refine ⟨fun b hb => ⟨mem_orderedBars.mp (hsub.subset (hmem b hb)), fun hinc => ?_⟩, ?_, ?_, ?_⟩
  · have hb' := hmem b hb
    rw [hclosed, hinc, if_neg Bool.false_ne_true] at hb'
    exact closed_of_mem_rdropWhile hordered hb'
  · rw [← hresult]
    exact hpair.sublist (List.drop_sublist _ _)
  · rw [← hresult, List.length_drop]
    omega
  · intro b hb hkeep first hfirst hle
    have hin : b ∈ closed := by
      rw [hclosed]
      split_ifs with hinc
      · exact mem_orderedBars.mpr hb
      · exact mem_rdropWhile_of_closed (mem_orderedBars.mpr hb) (hkeep.resolve_left hinc)
    -- the ones before the result are older than all of it
    rw [← List.take_append_drop (closed.length - size) closed, hresult] at hin hpair
    rcases List.mem_append.mp hin with hbefore | hafter
    · have hlt := (List.pairwise_append.mp hpair).2.2 b hbefore first
        (List.mem_of_mem_head? hfirst)
      omega
    · exact hafter

/-- Two bars of a minute, the second of them still forming and sent twice. -/
def twoMinutes : List Received :=
  [.timeout, .frame [.rows [minuteRow 60 3, minuteRow 120 2], .other],
    .frame [.rows [minuteRow 120 3], .completed]]

theorem fetchBars_spec_twoMinutes :
    ∃ result dropped, fetchBars 10 60 false 150 twoMinutes = some (result, dropped) ∧
      (∀ b ∈ result, (b.tSec : ℚ) + (60 : ℤ) ≤ 150) ∧ result.length ≤ 10 := by
  obtain ⟨⟨result, dropped⟩, h⟩ : ∃ answer, fetchBars 10 60 false 150 twoMinutes = some answer :=
    Option.isSome_iff_exists.mp (by decide +kernel)
  obtain ⟨before, packets, rest, s, -, -, -, hresult, -, hlength, -⟩ := fetchBars_spec h
  exact ⟨result, dropped, h, fun b hb => (hresult b hb).2 rfl, hlength⟩

end TradingView

end Sentinel
