import Mathlib.Algebra.Order.Field.Rat
import Mathlib.Algebra.Order.Group.Abs
import Mathlib.Algebra.Order.Group.Unbundled.Int
import Mathlib.Data.Rat.Cast.Order
import Mathlib.Tactic.NormNum

/-!
# Binary64 numbers that need no rounding

A finite binary64 number is an integer below `2 ^ 53` in size, scaled by a power of two. An operation whose
exact result is such a number returns it.
-/

namespace MultiAiRouter.Common

/-- A value that a finite binary64 number holds exactly. -/
def IsBinary64 (value : ℚ) : Prop :=
  ∃ significand exponent : ℤ, |significand| < 2 ^ 53 ∧ -1074 ≤ exponent ∧ exponent ≤ 971 ∧
    value = significand * 2 ^ exponent

/-- A rounding to binary64 keeps what needs none. -/
structure Rounding where
  round : ℚ → ℚ
  exact : ∀ value, IsBinary64 value → round value = value

/-- An integer below `2 ^ 53` in size is a binary64 number, scaled by a power of two down to `2 ^ -1074`. -/
theorem isBinary64_scaled {significand : ℤ} (h : |significand| < 2 ^ 53) {places : ℕ} (hplaces : places ≤ 1074) :
    IsBinary64 ((significand : ℚ) / 2 ^ places) := by
  refine ⟨significand, -(places : ℤ), h, by omega, by omega, ?_⟩
  rw [zpow_neg, zpow_natCast, div_eq_mul_inv]

/-- An integer below `2 ^ 53` in size is a binary64 number. -/
theorem isBinary64_int {significand : ℤ} (h : |significand| < 2 ^ 53) : IsBinary64 (significand : ℚ) := by
  have hscaled := isBinary64_scaled h (Nat.zero_le 1074)
  rwa [pow_zero, div_one] at hscaled

end MultiAiRouter.Common
