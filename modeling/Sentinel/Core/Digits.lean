import Mathlib.Data.Int.Log
import Sentinel.Core.Money

/-!
# Numbers of so many digits

Rounding to the nearest number of `d` digits in base `b`, ties to even, with a least
exponent.  It keeps the order, and leaves what has that few digits alone.
-/

namespace Sentinel

namespace Digits

variable (b d : ℕ) (low : ℤ)

/-- The exponent of the last digit of `x`. -/
def exponent (x : Dec) : ℤ := max (Int.log b |x| - (d - 1)) low

def round (x : Dec) : Dec := quantize x ((b : Dec) ^ exponent b d low x)

variable {b d low} {x y : Dec}

@[simp] theorem round_zero : round b d low 0 = 0 := by
  rw [round, quantize, zero_div, ← Int.cast_zero, roundHalfEven_intCast, Int.cast_zero, zero_mul]

theorem quantize_zpow (hb : 1 < b) {e k : ℤ} (h : e ≤ k) :
    quantize ((b : Dec) ^ k) ((b : Dec) ^ e) = (b : Dec) ^ k := by
  have hpos : (0 : Dec) < b := by
    exact_mod_cast Nat.zero_lt_of_lt hb
  obtain ⟨n, hn⟩ := Int.eq_ofNat_of_zero_le (sub_nonneg.mpr h)
  have hsplit : (b : Dec) ^ k = ((b ^ n : ℕ) : ℤ) * (b : Dec) ^ e := by
    rw [show k = n + e by omega, zpow_add₀ hpos.ne', zpow_natCast]
    push_cast
    rfl
  rw [hsplit, quantize_mul_self _ (zpow_pos hpos e)]

theorem exponent_le_log (hd : 1 ≤ d) (h : low < exponent b d low x) :
    exponent b d low x ≤ Int.log b |x| := by
  rw [exponent, lt_max_iff] at h
  rcases h with h | h
  · rw [exponent, max_eq_left h.le]
    omega
  · exact absurd h (lt_irrefl low)

theorem round_mono (hb : 1 < b) (hd : 1 ≤ d) (hx : 0 ≤ x) (hxy : x ≤ y) :
    round b d low x ≤ round b d low y := by
  have hpos : ∀ e : ℤ, (0 : Dec) < (b : Dec) ^ e :=
    zpow_pos (by exact_mod_cast Nat.zero_lt_of_lt hb)
  rcases hx.eq_or_lt with rfl | hx
  · rw [round_zero, round, ← show quantize 0 ((b : Dec) ^ exponent b d low y) = 0 by
      simpa using quantize_mul_self 0 (hpos _)]
    exact quantize_mono (hpos _) hxy
  · have hy := hx.trans_le hxy
    have hlog : Int.log b |x| ≤ Int.log b |y| := by
      rw [abs_of_pos hx, abs_of_pos hy]
      exact Int.log_mono_right hx hxy
    rcases (show exponent b d low x ≤ exponent b d low y from
      max_le_max_right low (sub_le_sub_right hlog _)).eq_or_lt with heq | hlt
    · rw [round, round, heq]
      exact quantize_mono (hpos _) hxy
    · -- the power of the base where the second number begins stands between the two
      have hlow : low < exponent b d low y := (le_max_right _ _).trans_lt hlt
      have hbelow := exponent_le_log hd hlow
      have hbetween : x ≤ (b : Dec) ^ Int.log b |y| := by
        by_contra hlarge
        have hsame := (Int.zpow_le_iff_le_log hb hx).mp (not_le.mp hlarge).le
        rw [← abs_of_pos hx] at hsame
        rw [exponent, exponent, le_antisymm hlog (abs_of_pos hx ▸ hsame)] at hlt
        exact lt_irrefl _ hlt
      calc round b d low x ≤ quantize ((b : Dec) ^ Int.log b |y|) _ :=
            quantize_mono (hpos _) hbetween
        _ = (b : Dec) ^ Int.log b |y| := quantize_zpow hb (hlt.le.trans hbelow)
        _ = quantize ((b : Dec) ^ Int.log b |y|) ((b : Dec) ^ exponent b d low y) :=
            (quantize_zpow hb hbelow).symm
        _ ≤ round b d low y := by
            refine quantize_mono (hpos _) ?_
            rw [abs_of_pos hy]
            exact Int.zpow_log_le_self hb hy

end Digits

def binary64 (x : Dec) : Dec := Digits.round 2 53 (-1074) x

@[simp] theorem binary64_zero : binary64 0 = 0 := Digits.round_zero

theorem binary64_mono {x y : Dec} (hx : 0 ≤ x) (hxy : x ≤ y) : binary64 x ≤ binary64 y :=
  Digits.round_mono (by norm_num) (by norm_num) hx hxy

def binary64Mul (x y : Dec) : Dec := binary64 (binary64 x * binary64 y)

end Sentinel
