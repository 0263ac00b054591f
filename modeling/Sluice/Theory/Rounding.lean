/-
# Theory.Rounding -- round to nearest, ties to even, at a fixed precision

Rounding as a relation between rationals.  `Nearest x r` rounds to an integer, and
`Rounded p x v` to `p + 1` significant bits: the exponent of `x` fixes the spacing of the
representable numbers around it, and `v` is the nearest of them.

* Rounding is monotone (`Rounded.mono`), also across a change of exponent.
* Its error is at most half a unit in the last place (`Rounded.le`, `Rounded.ge`), as a
  share of the value that is rounded.
-/
import Mathlib.Algebra.Order.Field.Power
import Mathlib.Algebra.Order.Ring.Rat
import Mathlib.Tactic.FieldSimp
import Mathlib.Tactic.Linarith
import Mathlib.Tactic.Positivity
import Mathlib.Tactic.Ring

namespace Sluice.Theory

set_option autoImplicit false

/-! ## To an integer -/

structure Nearest (x : ℚ) (r : ℕ) : Prop where
  below : x ≤ r + 1 / 2
  above : (r : ℚ) ≤ x + 1 / 2
  even : x = r + 1 / 2 ∨ (r : ℚ) = x + 1 / 2 → r % 2 = 0

namespace Nearest

variable {x y : ℚ} {r s : ℕ}

theorem natCast (n : ℕ) : Nearest n n where
  below := by linarith
  above := by linarith
  even tie := by rcases tie with tie | tie <;> linarith

theorem mono (left : Nearest x r) (right : Nearest y s) (le : x ≤ y) : r ≤ s := by
  by_contra above
  have gap : (s : ℚ) + 1 ≤ r := by exact_mod_cast not_le.mp above
  -- only one midpoint could go to both sides, and it goes to the even one
  have high : (r : ℚ) = x + 1 / 2 := by linarith [left.above, right.below]
  have low : y = s + 1 / 2 := by linarith [left.above, right.below]
  have next : (r : ℚ) = (s + 1 : ℕ) := by push_cast; linarith [left.above, right.below]
  have even : r % 2 = 0 := left.even (.inr high)
  have even' : s % 2 = 0 := right.even (.inl low)
  have next : r = s + 1 := by exact_mod_cast next
  omega

end Nearest

/-! ## To a number of significant bits -/

/-- `v` is `x` rounded to `p + 1` significant bits. -/
def Rounded (p : ℕ) (x v : ℚ) : Prop :=
  ∃ (e : ℤ) (r : ℕ), (2 : ℚ) ^ e ≤ x ∧ x < 2 ^ (e + 1) ∧
    Nearest (x / 2 ^ (e - p)) r ∧ v = r * 2 ^ (e - p)

namespace Rounded

variable {p : ℕ} {x y v w : ℚ}

/-- Rounding stays in the binade, its upper end included. -/
theorem binade {e : ℤ} {r : ℕ} (low : (2 : ℚ) ^ e ≤ x) (high : x < 2 ^ (e + 1))
    (nearest : Nearest (x / 2 ^ (e - p)) r) :
    (2 : ℚ) ^ e ≤ r * 2 ^ (e - p) ∧ (r : ℚ) * 2 ^ (e - p) ≤ 2 ^ (e + 1) := by
  have ulp : (0 : ℚ) < 2 ^ (e - p) := by positivity
  have bottom : (2 : ℚ) ^ e = (2 ^ p : ℕ) * 2 ^ (e - p) := by
    rw [Nat.cast_pow, Nat.cast_ofNat, ← zpow_natCast, ← zpow_add₀ two_ne_zero]
    congr 1; ring
  have top : (2 : ℚ) ^ (e + 1) = (2 ^ (p + 1) : ℕ) * 2 ^ (e - p) := by
    rw [Nat.cast_pow, Nat.cast_ofNat, ← zpow_natCast, ← zpow_add₀ two_ne_zero]
    congr 1; push_cast; ring
  constructor
  · rw [bottom]
    have le : ((2 ^ p : ℕ) : ℚ) ≤ x / 2 ^ (e - p) := by
      rwa [le_div_iff₀ ulp, ← bottom]
    have le : 2 ^ p ≤ r := (Nearest.natCast _).mono nearest le
    exact mul_le_mul_of_nonneg_right (by exact_mod_cast le) ulp.le
  · rw [top]
    have le : x / 2 ^ (e - p) ≤ ((2 ^ (p + 1) : ℕ) : ℚ) := by
      rw [div_le_iff₀ ulp, ← top]
      exact high.le
    have le : r ≤ 2 ^ (p + 1) := nearest.mono (Nearest.natCast _) le
    exact mul_le_mul_of_nonneg_right (by exact_mod_cast le) ulp.le

theorem mono (left : Rounded p x v) (right : Rounded p y w) (le : x ≤ y) : v ≤ w := by
  obtain ⟨e, r, low, high, nearest, rfl⟩ := left
  obtain ⟨e', r', low', high', nearest', rfl⟩ := right
  have exponents : e < e' + 1 :=
    (zpow_lt_zpow_iff_right₀ one_lt_two).mp (low.trans_lt (le.trans_lt high'))
  rcases (Int.lt_add_one_iff.mp exponents).lt_or_eq with less | rfl
  · -- different binades: the power of two between them separates the results
    calc (r : ℚ) * 2 ^ (e - p) ≤ 2 ^ (e + 1) := (binade low high nearest).2
      _ ≤ 2 ^ e' := zpow_le_zpow_right₀ one_le_two less
      _ ≤ r' * 2 ^ (e' - p) := (binade low' high' nearest').1
  · have ulp : (0 : ℚ) < 2 ^ (e - p) := by positivity
    have scaled : x / 2 ^ (e - p) ≤ y / 2 ^ (e - p) := div_le_div_of_nonneg_right le ulp.le
    have le : r ≤ r' := nearest.mono nearest' scaled
    exact mul_le_mul_of_nonneg_right (by exact_mod_cast le) ulp.le

/-- Half a unit in the last place, against the value that is rounded. -/
theorem half_ulp {e : ℤ} (low : (2 : ℚ) ^ e ≤ x) :
    1 / 2 * (2 : ℚ) ^ (e - p) ≤ x / 2 ^ (p + 1) := by
  have scaled : 1 / 2 * (2 : ℚ) ^ (e - p) = 2 ^ e / 2 ^ (p + 1) := by
    rw [zpow_sub₀ two_ne_zero, zpow_natCast, pow_succ]
    field_simp
  rw [scaled]
  gcongr

theorem ge (rounded : Rounded p x v) : x - x / 2 ^ (p + 1) ≤ v := by
  obtain ⟨e, r, low, -, nearest, rfl⟩ := rounded
  have ulp : (0 : ℚ) < 2 ^ (e - p) := by positivity
  have below := (div_le_iff₀ ulp).mp nearest.below
  have error := half_ulp (p := p) low
  linarith

theorem le (rounded : Rounded p x v) : v ≤ x + x / 2 ^ (p + 1) := by
  obtain ⟨e, r, low, -, nearest, rfl⟩ := rounded
  have ulp : (0 : ℚ) < 2 ^ (e - p) := by positivity
  have above := mul_le_mul_of_nonneg_right nearest.above ulp.le
  rw [add_mul, div_mul_cancel₀ _ ulp.ne'] at above
  have error := half_ulp (p := p) low
  linarith

theorem pos (rounded : Rounded p x v) : 0 < v := by
  obtain ⟨e, r, low, high, nearest, rfl⟩ := rounded
  exact lt_of_lt_of_le (by positivity) (binade low high nearest).1

end Rounded

end Sluice.Theory
