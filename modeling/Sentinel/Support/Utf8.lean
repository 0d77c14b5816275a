import Mathlib.Data.List.Basic
import Mathlib.Tactic.Common

/-!
# UTF-8 over lists of bytes

Encoding, strict decoding, and decoding that puts U+FFFD in place of every
maximal undecodable run of bytes.  Characters are Unicode scalar values, and
what one of them is written as is taken from the core library.  Last, the blanks
that `str.strip` takes from both ends of a text.
-/

namespace Sentinel
namespace Utf8

variable (text : List Char)

def encode : List UInt8 := text.flatMap String.utf8EncodeChar

def decode (bytes : List UInt8) : Option (List Char) :=
  bytes.toByteArray.utf8Decode?.map Array.toList

def decodeChar? (bytes : List UInt8) : Option Char := bytes.toByteArray.utf8DecodeChar? 0

/-- What must follow a leading byte: how many bytes, and the bounds on the
first of them.  The others are between `0x80` and `0xbf`. -/
def continuation (lead : UInt8) : Option (ℕ × UInt8 × UInt8) :=
  if 0xc2 ≤ lead ∧ lead ≤ 0xdf then some (1, 0x80, 0xbf)
  else if lead = 0xe0 then some (2, 0xa0, 0xbf)
  else if lead = 0xed then some (2, 0x80, 0x9f)
  else if 0xe1 ≤ lead ∧ lead ≤ 0xef then some (2, 0x80, 0xbf)
  else if lead = 0xf0 then some (3, 0x90, 0xbf)
  else if 0xf1 ≤ lead ∧ lead ≤ 0xf3 then some (3, 0x80, 0xbf)
  else if lead = 0xf4 then some (3, 0x80, 0x8f)
  else none

def damagedTail (lead : UInt8) (rest : List UInt8) : ℕ :=
  match continuation lead, rest with
  | some (n, low, high), b :: rest =>
      if low ≤ b ∧ b ≤ high then
        1 + ((rest.take (n - 1)).takeWhile fun b => 0x80 ≤ b && b ≤ 0xbf).length
      else 0
  | _, _ => 0

def decodeReplace : List UInt8 → List Char
  | [] => []
  | lead :: rest =>
      match decodeChar? (lead :: rest) with
      | some c => c :: decodeReplace (rest.drop (c.utf8Size - 1))
      | none => '\uFFFD' :: decodeReplace (rest.drop (damagedTail lead rest))
  termination_by bytes => bytes.length
  decreasing_by
    all_goals
      simp only [List.length_drop, List.length_cons]
      omega

/-! ## Encoding -/

@[simp] theorem encode_nil : encode [] = [] := rfl

theorem encode_cons (c : Char) (text : List Char) :
    encode (c :: text) = String.utf8EncodeChar c ++ encode text := rfl

@[simp] theorem encode_append (text text' : List Char) :
    encode (text ++ text') = encode text ++ encode text' := by
  simp [encode]

theorem encode_eq_nil {text : List Char} : encode text = [] ↔ text = [] := by
  cases text with
  | nil => simp
  | cons c text => simp [encode_cons]

theorem toByteArray_encode : (encode text).toByteArray = text.utf8Encode :=
  rfl

/-! ## Strict decoding -/

theorem decodeChar?_encode (c : Char) (rest : List UInt8) :
    decodeChar? (String.utf8EncodeChar c ++ rest) = some c := by
  rw [decodeChar?]
  rw [List.toByteArray_append]
  exact ByteArray.utf8DecodeChar?_utf8EncodeChar_append

@[simp] theorem decode_encode : decode (encode text) = some text := by
  rw [decode]
  rw [toByteArray_encode, List.utf8Decode?_utf8Encode]
  rfl

theorem encode_of_decode {bytes : List UInt8} {text : List Char}
    (h : decode bytes = some text) : bytes = encode text := by
  rw [decode] at h
  obtain ⟨chars, hchars, rfl⟩ := Option.map_eq_some_iff.1 h
  have hsome : (bytes.toByteArray.utf8Decode?).isSome := by rw [hchars]; rfl
  have hencoded : (bytes.toByteArray.utf8Decode?.get hsome).toList.utf8Encode =
      bytes.toByteArray := ByteArray.utf8Encode_get_utf8Decode?
  have hget : bytes.toByteArray.utf8Decode?.get hsome = chars := by
    simp [hchars]
  rw [hget, ← toByteArray_encode] at hencoded
  have hlists := congrArg (fun b => b.data.toList) hencoded
  simpa using hlists.symm

theorem decode_eq_some_iff {bytes : List UInt8} {text : List Char} :
    decode bytes = some text ↔ bytes = encode text := by
  constructor
  · exact encode_of_decode
  · intro h
    rw [h, decode_encode]

theorem encode_injective : Function.Injective encode := by
  intro text text' h
  have hdecoded : decode (encode text) = decode (encode text') := by rw [h]
  simpa using hdecoded

/-! ## Prefixes -/

theorem prefix_of_encode_append {text text' : List Char} {rest rest' : List UInt8}
    (h : encode text ++ rest = encode text' ++ rest') :
    text <+: text' ∨ text' <+: text := by
  induction text generalizing text' with
  | nil => exact Or.inl List.nil_prefix
  | cons c text ih =>
      cases text' with
      | nil => exact Or.inr List.nil_prefix
      | cons c' text' =>
          simp only [encode_cons, List.append_assoc] at h
          have hfirst : c = c' := by
            have hdecoded := congrArg decodeChar? h
            simpa [decodeChar?_encode] using hdecoded
          subst hfirst
          have hrest := List.append_cancel_left h
          rcases ih hrest with hinitial | hinitial
          · exact Or.inl ((List.prefix_cons_inj c).2 hinitial)
          · exact Or.inr ((List.prefix_cons_inj c).2 hinitial)

theorem prefix_of_encoded {text text' : List Char} (h : encode text <+: encode text') :
    text <+: text' := by
  obtain ⟨rest, hrest⟩ := h
  have hsplit : encode text ++ rest = encode text' ++ [] := by simpa using hrest
  rcases prefix_of_encode_append hsplit with hinitial | hinitial
  · exact hinitial
  · obtain ⟨tail, rfl⟩ := hinitial
    have hlength := congrArg List.length hrest
    have hnil : encode tail = [] := by
      apply List.eq_nil_of_length_eq_zero
      simp only [encode_append, List.length_append] at hlength
      omega
    rw [encode_eq_nil.1 hnil]
    simp

/-! ## Decoding with replacement -/

theorem decodeReplace_cons {lead : UInt8} {rest : List UInt8} {c : Char}
    (h : decodeChar? (lead :: rest) = some c) :
    decodeReplace (lead :: rest) = c :: decodeReplace (rest.drop (c.utf8Size - 1)) := by
  rw [decodeReplace, h]

@[simp] theorem decodeReplace_encode : decodeReplace (encode text) = text := by
  induction text with
  | nil => simp [decodeReplace]
  | cons c text ih =>
      have hlength := String.length_utf8EncodeChar c
      have hdecoded := decodeChar?_encode c (encode text)
      rw [encode_cons]
      cases hbytes : String.utf8EncodeChar c with
      | nil => exact absurd hbytes String.utf8EncodeChar_ne_nil
      | cons lead tail =>
          rw [hbytes] at hlength hdecoded
          simp only [List.cons_append] at hdecoded ⊢
          rw [decodeReplace_cons hdecoded]
          have htail : c.utf8Size - 1 = tail.length := by
            rw [← hlength]
            simp
          rw [htail, List.drop_left, ih]

/-! ## Line feeds -/

theorem lineFeed_ne_ofNat {n : ℕ} (hlow : 0x80 ≤ n) (hhigh : n < 0x100) :
    (10 : UInt8) ≠ UInt8.ofNat n := by
  intro h
  have hvalue := congrArg UInt8.toNat h
  have hten : (10 : UInt8).toNat = 10 := rfl
  simp only [UInt8.toNat_ofNat'] at hvalue
  omega

theorem lineFeed_mem_encodeChar {c : Char} (h : (10 : UInt8) ∈ String.utf8EncodeChar c) :
    c = '\n' := by
  unfold String.utf8EncodeChar at h
  simp only at h
  split_ifs at h with hone htwo hthree
  · have hbyte : (10 : UInt8) = UInt8.ofNat c.val.toNat := by simpa using h
    have hvalue := congrArg UInt8.toNat hbyte
    have hten : (10 : UInt8).toNat = 10 := rfl
    have hcode : c.val.toNat = 10 := by
      simp only [UInt8.toNat_ofNat'] at hvalue
      omega
    exact Char.ext (UInt32.toNat_inj.1 hcode)
  all_goals simp only [List.mem_cons, List.not_mem_nil, or_false] at h
  · rcases h with h | h <;> exact absurd h (lineFeed_ne_ofNat (by omega) (by omega))
  · rcases h with h | h | h <;> exact absurd h (lineFeed_ne_ofNat (by omega) (by omega))
  · rcases h with h | h | h | h <;> exact absurd h (lineFeed_ne_ofNat (by omega) (by omega))

theorem lineFeed_mem_encode_iff {text : List Char} :
    (10 : UInt8) ∈ encode text ↔ '\n' ∈ text := by
  rw [encode]
  rw [List.mem_flatMap]
  constructor
  · rintro ⟨c, hc, hbyte⟩
    exact lineFeed_mem_encodeChar hbyte ▸ hc
  · intro h
    exact ⟨'\n', h, by decide⟩

end Utf8

/-! ## Blanks -/

namespace Chars

/-- `str.isspace`, for one character. -/
def isSpace (c : Char) : Bool :=
  (9 ≤ c.toNat && c.toNat ≤ 13) || (28 ≤ c.toNat && c.toNat ≤ 32) || c.toNat = 0x85 ||
    c.toNat = 0xa0 || c.toNat = 0x1680 || (0x2000 ≤ c.toNat && c.toNat ≤ 0x200a) ||
    c.toNat = 0x2028 || c.toNat = 0x2029 || c.toNat = 0x202f || c.toNat = 0x205f ||
    c.toNat = 0x3000

def strip (line : List Char) : List Char :=
  ((line.dropWhile isSpace).reverse.dropWhile isSpace).reverse

end Chars

end Sentinel
