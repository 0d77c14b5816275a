import Sentinel.Support.Dict
import Mathlib.Data.Nat.Digits.Defs
import Mathlib.Data.List.Sort
import Mathlib.Data.Rat.Defs
import Mathlib.Algebra.Order.Ring.Rat

/-!
# JSON as the reference Python implementation reads and writes it

Text is a list of code points, lone surrogates included, since a string read
from an escape may hold one.  Writing is compact and leaves non-ASCII
characters as they are; reading is the recursive descent of the standard
scanner, with the fuel its recursion needs.

Floating-point numbers are abstract: what is known of them is the text they
are printed as, that reading that text gives them back, and their value for
comparisons.
-/

namespace Sentinel

inductive Point where
  | scalar (c : Char)
  | surrogate (n : Fin 2048)
  deriving DecidableEq

namespace Point

def code : Point → ℕ
  | scalar c => c.toNat
  | surrogate n => 0xd800 + n

def ofCode (n : ℕ) : Point :=
  if h : 0xd800 ≤ n ∧ n < 0xe000 then surrogate ⟨n - 0xd800, by omega⟩
  else scalar (Char.ofNat n)

end Point

abbrev Text := List Point

namespace Text

def ofChars (cs : List Char) : Text := cs.map Point.scalar

def ofString (s : String) : Text := ofChars s.toList

def codes (s : Text) : List ℕ := s.map Point.code

def lt (s t : Text) : Prop := s.codes < t.codes

instance (s t : Text) : Decidable (lt s t) := inferInstanceAs (Decidable (s.codes < t.codes))

end Text

/-! ## Numbers -/

structure Exponent where
  negative : Option Bool
  digit : Fin 10
  digits : List (Fin 10)
  deriving DecidableEq

structure FloatLiteral where
  negative : Bool
  whole : ℕ
  fraction : List (Fin 10)
  exponent : Option Exponent
  proper : fraction ≠ [] ∨ exponent.isSome
  deriving DecidableEq

inductive FloatText where
  | finite (literal : FloatLiteral)
  | nan
  | infinity
  | negInfinity
  deriving DecidableEq

inductive FloatValue where
  | finite (q : ℚ)
  | nan
  | infinity
  | negInfinity
  deriving DecidableEq

/-- The floating-point numbers of the interpreter: `repr`, `float` and the
value, with `float(repr(x)) == x`. -/
structure FloatOps (F : Type) where
  text : F → FloatText
  read : FloatText → F
  value : F → FloatValue
  read_text : ∀ x, read (text x) = x

theorem neZero_ten : NeZero 10 := inferInstance

def decimal (n : ℕ) : List (Fin 10) :=
  if n = 0 then [0] else (Nat.digits 10 n).reverse.map (Fin.ofNat 10)

def ofDecimal (ds : List (Fin 10)) : ℕ := ds.foldl (fun n d => 10 * n + d.val) 0

def digitChar (d : Fin 10) : Char := Char.ofNat (48 + d)

def digit? (p : Point) : Option (Fin 10) :=
  match p with
  | .scalar c => if h : 48 ≤ c.toNat ∧ c.toNat ≤ 57 then some ⟨c.toNat - 48, by omega⟩ else none
  | .surrogate _ => none

def digitText (ds : List (Fin 10)) : Text := ds.map fun d => .scalar (digitChar d)

/-! ## Values -/

/-- A JSON value.  The members of an object are in the order they are written
in, and floating-point numbers come from `F`. -/
inductive Json (F : Type) where
  | null
  | bool (b : Bool)
  | int (n : ℤ)
  | float (x : F)
  | str (s : Text)
  | arr (elements : List (Json F))
  | obj (members : List (Text × Json F))
  deriving Inhabited

namespace Json

variable {F : Type} (ops : FloatOps F)

/-! ## Writing -/

def hexDigit (n : ℕ) : Char := if n < 10 then Char.ofNat (48 + n) else Char.ofNat (87 + n)

def escapeChar (c : Char) : List Char :=
  match c with
  | '"' => ['\\', '"']
  | '\\' => ['\\', '\\']
  | '\n' => ['\\', 'n']
  | '\r' => ['\\', 'r']
  | '\t' => ['\\', 't']
  | '\x08' => ['\\', 'b']
  | '\x0c' => ['\\', 'f']
  | c =>
      if c.toNat < 0x20 then
        ['\\', 'u', '0', '0', hexDigit (c.toNat / 16), hexDigit (c.toNat % 16)]
      else [c]

def escape : Point → Text
  | .scalar c => Text.ofChars (escapeChar c)
  | .surrogate n => [.surrogate n]

def renderString (s : Text) : Text :=
  .scalar '"' :: (s.flatMap escape ++ [.scalar '"'])

def sign (negative : Bool) : Text := if negative then [.scalar '-'] else []

def renderInt (n : ℤ) : Text := sign (n < 0) ++ digitText (decimal n.natAbs)

def exponentSign : Option Bool → Text
  | none => []
  | some true => [.scalar '-']
  | some false => [.scalar '+']

def renderFraction (fraction : List (Fin 10)) : Text :=
  if fraction = [] then [] else .scalar '.' :: digitText fraction

def renderExponent : Option Exponent → Text
  | none => []
  | some e => .scalar 'e' :: (exponentSign e.negative ++ digitText (e.digit :: e.digits))

def renderFloat : FloatText → Text
  | .nan => Text.ofChars ['N', 'a', 'N']
  | .infinity => Text.ofChars ['I', 'n', 'f', 'i', 'n', 'i', 't', 'y']
  | .negInfinity => Text.ofChars ['-', 'I', 'n', 'f', 'i', 'n', 'i', 't', 'y']
  | .finite l =>
      sign l.negative ++ digitText (decimal l.whole) ++ renderFraction l.fraction ++
        renderExponent l.exponent

mutual

/-- `json.dumps(value, ensure_ascii=False, separators=(",", ":"))`. -/
def render : Json F → Text
  | null => Text.ofChars ['n', 'u', 'l', 'l']
  | bool true => Text.ofChars ['t', 'r', 'u', 'e']
  | bool false => Text.ofChars ['f', 'a', 'l', 's', 'e']
  | int n => renderInt n
  | float x => renderFloat (ops.text x)
  | str s => renderString s
  | arr [] => Text.ofChars ['[', ']']
  | arr (e :: es) => .scalar '[' :: (render e ++ renderElements es)
  | obj [] => Text.ofChars ['{', '}']
  | obj ((k, v) :: ms) =>
      .scalar '{' :: (renderString k ++ .scalar ':' :: (render v ++ renderMembers ms))

def renderElements : List (Json F) → Text
  | [] => [.scalar ']']
  | e :: es => .scalar ',' :: (render e ++ renderElements es)

def renderMembers : List (Text × Json F) → Text
  | [] => [.scalar '}']
  | (k, v) :: ms =>
      .scalar ',' :: (renderString k ++ .scalar ':' :: (render v ++ renderMembers ms))

end

/-! ## Reading -/

def isSpace (p : Point) : Bool :=
  p = .scalar ' ' || p = .scalar '\t' || p = .scalar '\n' || p = .scalar '\r'

variable (cs : Text)

def skipSpace : Text := cs.dropWhile isSpace

def spanDigits : Text → List (Fin 10) × Text
  | [] => ([], [])
  | p :: cs =>
      match digit? p with
      | some d => (d :: (spanDigits cs).1, (spanDigits cs).2)
      | none => ([], p :: cs)

def scanFraction : List (Fin 10) × Text :=
  match cs with
  | .scalar '.' :: rest =>
      match spanDigits rest with
      | ([], _) => ([], cs)
      | (ds, rest) => (ds, rest)
  | _ => ([], cs)

def scanSign : Text → Option Bool × Text
  | .scalar '-' :: rest => (some true, rest)
  | .scalar '+' :: rest => (some false, rest)
  | cs => (none, cs)

def scanExponent : Option Exponent × Text :=
  match cs with
  | .scalar c :: rest =>
      if c = 'e' ∨ c = 'E' then
        match spanDigits (scanSign rest).2 with
        | ([], _) => (none, cs)
        | (d :: ds, after) => (some ⟨(scanSign rest).1, d, ds⟩, after)
      else (none, cs)
  | _ => (none, cs)

/-- The whole part of a number: `0`, or digits that do not start with `0`. -/
def scanWhole : Option (ℕ × Text) :=
  match spanDigits cs with
  | ([], _) => none
  | (d :: ds, rest) => if d = 0 then some (0, cs.tail) else some (ofDecimal (d :: ds), rest)

def scanUnsigned (negative : Bool) (cs : Text) : Option (Json F × Text) :=
  (scanWhole cs).map fun (whole, rest) =>
    let fraction := scanFraction rest
    let exponent := scanExponent fraction.2
    if h : fraction.1 ≠ [] ∨ exponent.1.isSome then
      (float (ops.read (.finite ⟨negative, whole, fraction.1, exponent.1, h⟩)), exponent.2)
    else (int (if negative then -whole else whole), rest)

def scanNumber : Text → Option (Json F × Text)
  | .scalar '-' :: rest => scanUnsigned ops true rest
  | cs => scanUnsigned ops false cs

def hexValue? (p : Point) : Option ℕ :=
  match p with
  | .scalar c =>
      if 48 ≤ c.toNat ∧ c.toNat ≤ 57 then some (c.toNat - 48)
      else if 97 ≤ c.toNat ∧ c.toNat ≤ 102 then some (c.toNat - 87)
      else if 65 ≤ c.toNat ∧ c.toNat ≤ 70 then some (c.toNat - 55)
      else none
  | .surrogate _ => none

def hex4? (a b c d : Point) : Option ℕ := do
  let a ← hexValue? a
  let b ← hexValue? b
  let c ← hexValue? c
  let d ← hexValue? d
  pure (((a * 16 + b) * 16 + c) * 16 + d)

def unescape? : Char → Option Char
  | '"' => some '"'
  | '\\' => some '\\'
  | '/' => some '/'
  | 'b' => some '\x08'
  | 'f' => some '\x0c'
  | 'n' => some '\n'
  | 'r' => some '\r'
  | 't' => some '\t'
  | _ => none

def consEscaped (code : ℕ) (source : Text) (tail : Text) : Text :=
  match tail with
  | .surrogate n :: rest =>
      if 0xd800 ≤ code ∧ code < 0xdc00 ∧ 0x400 ≤ n.val ∧
          source.take 2 = [.scalar '\\', .scalar 'u'] then
        .scalar (Char.ofNat (0x10000 + (code - 0xd800) * 0x400 + (n.val - 0x400))) :: rest
      else Point.ofCode code :: tail
  | _ => Point.ofCode code :: tail

def scanString : Text → Option (Text × Text)
  | [] => none
  | .surrogate n :: cs => (scanString cs).map fun (s, rest) => (.surrogate n :: s, rest)
  | .scalar '"' :: cs => some ([], cs)
  | .scalar '\\' :: .scalar 'u' :: a :: b :: c :: d :: cs =>
      (hex4? a b c d).bind fun code =>
        (scanString cs).map fun (s, rest) => (consEscaped code cs s, rest)
  | .scalar '\\' :: .scalar c :: cs =>
      (unescape? c).bind fun c =>
        (scanString cs).map fun (s, rest) => (.scalar c :: s, rest)
  | .scalar c :: cs =>
      if c = '\\' ∨ c.toNat < 0x20 then none
      else (scanString cs).map fun (s, rest) => (.scalar c :: s, rest)

def collect (members : List (Text × Json F)) : List (Text × Json F) :=
  (members.foldl (fun d kv => d.set kv.1 kv.2) (Dict.empty : Dict Text (Json F))).items

def words : List (Text × Json F) :=
  [(Text.ofChars ['n', 'u', 'l', 'l'], null),
    (Text.ofChars ['t', 'r', 'u', 'e'], bool true),
    (Text.ofChars ['f', 'a', 'l', 's', 'e'], bool false),
    (Text.ofChars ['N', 'a', 'N'], float (ops.read .nan)),
    (Text.ofChars ['I', 'n', 'f', 'i', 'n', 'i', 't', 'y'], float (ops.read .infinity)),
    (Text.ofChars ['-', 'I', 'n', 'f', 'i', 'n', 'i', 't', 'y'],
      float (ops.read .negInfinity))]

def scanPlain : Option (Json F × Text) :=
  match (words ops).find? fun w => w.1.isPrefixOf cs with
  | some (word, value) => some (value, cs.drop word.length)
  | none => scanNumber ops cs

mutual

def reload : Json F → Json F
  | arr elements => arr (reloadElements elements)
  | obj members => obj (collect (reloadMembers members))
  | j => j

def reloadElements : List (Json F) → List (Json F)
  | [] => []
  | e :: es => reload e :: reloadElements es

def reloadMembers : List (Text × Json F) → List (Text × Json F)
  | [] => []
  | (k, v) :: ms => (k, reload v) :: reloadMembers ms

end

mutual

def scanOnce : ℕ → Text → Option (Json F × Text)
  | 0, _ => none
  | fuel + 1, cs =>
      match cs with
      | .scalar '"' :: cs => (scanString cs).map fun (s, rest) => (str s, rest)
      | .scalar '{' :: cs =>
          match skipSpace cs with
          | .scalar '}' :: rest => some (obj [], rest)
          | cs => (scanMembers fuel cs).map fun (ms, rest) => (obj (collect ms), rest)
      | .scalar '[' :: cs =>
          match skipSpace cs with
          | .scalar ']' :: rest => some (arr [], rest)
          | cs => (scanElements fuel cs).map fun (es, rest) => (arr es, rest)
      | cs => scanPlain ops cs

def scanElements : ℕ → Text → Option (List (Json F) × Text)
  | 0, _ => none
  | fuel + 1, cs =>
      (scanOnce fuel cs).bind fun (e, rest) =>
        match skipSpace rest with
        | .scalar ']' :: rest => some ([e], rest)
        | .scalar ',' :: rest =>
            (scanElements fuel (skipSpace rest)).map fun (es, rest) => (e :: es, rest)
        | _ => none

def scanMembers : ℕ → Text → Option (List (Text × Json F) × Text)
  | 0, _ => none
  | fuel + 1, cs =>
      match cs with
      | .scalar '"' :: cs =>
          (scanString cs).bind fun (k, rest) =>
            match skipSpace rest with
            | .scalar ':' :: rest =>
                (scanOnce fuel (skipSpace rest)).bind fun (v, rest) =>
                  match skipSpace rest with
                  | .scalar '}' :: rest => some ([(k, v)], rest)
                  | .scalar ',' :: rest =>
                      (scanMembers fuel (skipSpace rest)).map fun (ms, rest) =>
                        ((k, v) :: ms, rest)
                  | _ => none
            | _ => none
      | _ => none

end

/-- `json.loads`.  Every step into a value reads a character of it, so the
length of the text is fuel enough. -/
def loads : Option (Json F) :=
  match scanOnce ops (cs.length + 1) (skipSpace cs) with
  | some (j, rest) => if skipSpace rest = [] then some j else none
  | none => none

end Json
end Sentinel
