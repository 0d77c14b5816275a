import Mathlib.Data.List.Basic
import Sentinel.Support.PyJson

/-!
# Digits of every script

`str.isdigit` holds of the digits of every script and of the digit forms that
only stand for one (superscripts, circled, parenthesised or full-width digits,
and the like).  The compatibility normal form of a text writes the latter as
the digits they stand for and leaves the digits of the other scripts alone.

An integer becomes the floating-point number its literal is read as, unless it
is out of range.  Comparisons with a NaN are false, whichever way they go.
-/

namespace Sentinel

def floatLimit : ℤ := 2 ^ 1024 - 2 ^ 970

namespace FloatOps

variable {F : Type} (ops : FloatOps F)

attribute [local instance] neZero_ten in
/-- `float(n)`; nothing for the integers that overflow. -/
def ofInt? (n : ℤ) : Option F :=
  if floatLimit ≤ |n| then none
  else some (ops.read (.finite ⟨n < 0, n.natAbs, [0], none, .inl (List.cons_ne_nil _ _)⟩))

end FloatOps

namespace FloatValue

/-- `x <= y` on numbers. -/
def le : FloatValue → FloatValue → Bool
  | nan, _ => false
  | _, nan => false
  | negInfinity, _ => true
  | _, infinity => true
  | finite p, finite q => p ≤ q
  | finite _, negInfinity => false
  | infinity, finite _ => false
  | infinity, negInfinity => false

def isFinite : FloatValue → Bool
  | finite _ => true
  | _ => false

end FloatValue

end Sentinel

namespace Sentinel

/-- The code points of `isdigit`, as ranges. -/
def digitRanges : List (ℕ × ℕ) :=
  [(0x30, 0x39), (0xb2, 0xb3), (0xb9, 0xb9), (0x660, 0x669), (0x6f0, 0x6f9), (0x7c0, 0x7c9),
   (0x966, 0x96f), (0x9e6, 0x9ef), (0xa66, 0xa6f), (0xae6, 0xaef), (0xb66, 0xb6f),
   (0xbe6, 0xbef), (0xc66, 0xc6f), (0xce6, 0xcef), (0xd66, 0xd6f), (0xde6, 0xdef),
   (0xe50, 0xe59), (0xed0, 0xed9), (0xf20, 0xf29), (0x1040, 0x1049), (0x1090, 0x1099),
   (0x1369, 0x1371), (0x17e0, 0x17e9), (0x1810, 0x1819), (0x1946, 0x194f), (0x19d0, 0x19da),
   (0x1a80, 0x1a89), (0x1a90, 0x1a99), (0x1b50, 0x1b59), (0x1bb0, 0x1bb9), (0x1c40, 0x1c49),
   (0x1c50, 0x1c59), (0x2070, 0x2070), (0x2074, 0x2079), (0x2080, 0x2089), (0x2460, 0x2468),
   (0x2474, 0x247c), (0x2488, 0x2490), (0x24ea, 0x24ea), (0x24f5, 0x24fd), (0x24ff, 0x24ff),
   (0x2776, 0x277e), (0x2780, 0x2788), (0x278a, 0x2792), (0xa620, 0xa629), (0xa8d0, 0xa8d9),
   (0xa900, 0xa909), (0xa9d0, 0xa9d9), (0xa9f0, 0xa9f9), (0xaa50, 0xaa59), (0xabf0, 0xabf9),
   (0xff10, 0xff19), (0x104a0, 0x104a9), (0x10a40, 0x10a43), (0x10d30, 0x10d39),
   (0x10e60, 0x10e68), (0x11052, 0x1105a), (0x11066, 0x1106f), (0x110f0, 0x110f9),
   (0x11136, 0x1113f), (0x111d0, 0x111d9), (0x112f0, 0x112f9), (0x11450, 0x11459),
   (0x114d0, 0x114d9), (0x11650, 0x11659), (0x116c0, 0x116c9), (0x11730, 0x11739),
   (0x118e0, 0x118e9), (0x11950, 0x11959), (0x11c50, 0x11c59), (0x11d50, 0x11d59),
   (0x11da0, 0x11da9), (0x16a60, 0x16a69), (0x16ac0, 0x16ac9), (0x16b50, 0x16b59),
   (0x1d7ce, 0x1d7ff), (0x1e140, 0x1e149), (0x1e2f0, 0x1e2f9), (0x1e950, 0x1e959),
   (0x1f100, 0x1f10a), (0x1fbf0, 0x1fbf9)]

/-- `c.isdigit()`. -/
def isDigit (c : Char) : Bool :=
  digitRanges.any fun r => r.1 ≤ c.toNat && c.toNat ≤ r.2

def digitForms : List (ℕ × ℕ × ℕ) :=
  [(0xb2, 0xb3, 2), (0xb9, 0xb9, 1), (0x2070, 0x2070, 0), (0x2074, 0x2079, 4),
   (0x2080, 0x2089, 0), (0x2460, 0x2468, 1), (0x24ea, 0x24ea, 0), (0xff10, 0xff19, 0),
   (0x1d7ce, 0x1d7d7, 0), (0x1d7d8, 0x1d7e1, 0), (0x1d7e2, 0x1d7eb, 0), (0x1d7ec, 0x1d7f5, 0),
   (0x1d7f6, 0x1d7ff, 0), (0x1fbf0, 0x1fbf9, 0)]

def asciiDigit (d : ℕ) : Char := Char.ofNat (0x30 + d)

def nfkcDigit (c : Char) : List Char :=
  match digitForms.find? fun f => f.1 ≤ c.toNat && c.toNat ≤ f.2.1 with
  | some (first, _, d) => [asciiDigit (d + (c.toNat - first))]
  | none =>
      if 0x2474 ≤ c.toNat ∧ c.toNat ≤ 0x247c then
        ['(', asciiDigit (c.toNat - 0x2474 + 1), ')']
      else if 0x2488 ≤ c.toNat ∧ c.toNat ≤ 0x2490 then
        [asciiDigit (c.toNat - 0x2488 + 1), '.']
      else if c.toNat = 0x1f100 then ['0', '.']
      else if 0x1f101 ≤ c.toNat ∧ c.toNat ≤ 0x1f10a then
        [asciiDigit (c.toNat - 0x1f101), ',']
      else [c]

/-- `unicodedata.normalize("NFKC", text)` of a text of digits. -/
def nfkcDigits (text : List Char) : List Char := text.flatMap nfkcDigit

end Sentinel
