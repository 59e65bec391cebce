import Mathlib.Algebra.Order.Field.Basic

/-!
# Monomial Maps

Maps of a field to itself that are a multiple of a power of their argument, of any integer
exponent: what a change of units does with a quantity, or with its inverse. They compose, and two
of the same exponent compare alike everywhere but at zero, so that one value decides.
-/

namespace Lib

variable {K : Type} [Field K] {f g : K → K} {m n : ℤ} {v : K}

/-- A multiple of a power. -/
def Monomial (n : ℤ) (f : K → K) : Prop := ∀ v, f v = f 1 * v ^ n

namespace Monomial

theorem var : Monomial 1 fun v : K => v := fun v => by rw [zpow_one, one_mul]

theorem mul (hf : Monomial n f) (q : K) : Monomial n fun v => f v * q := fun v => by
  dsimp only
  rw [hf v, mul_right_comm]

theorem div (hf : Monomial n f) (q : K) : Monomial n fun v => f v / q := fun v => by
  dsimp only
  rw [hf v, mul_div_right_comm]

theorem inv (q : K) (hf : Monomial n f) : Monomial (-n) fun v => q / f v := fun v => by
  dsimp only
  rw [hf v, zpow_neg, div_mul_eq_div_div, div_eq_mul_inv]

theorem comp (hg : Monomial m g) (hf : Monomial n f) : Monomial (n * m) (g ∘ f) := fun v => by
  calc g (f v) = g 1 * (f 1 * v ^ n) ^ m := by rw [hg, hf v]
    _ = g 1 * f 1 ^ m * v ^ (n * m) := by rw [mul_zpow, ← zpow_mul, mul_assoc]
    _ = g (f 1) * v ^ (n * m) := by rw [hg (f 1)]

end Monomial

section Order

variable [LinearOrder K] [IsStrictOrderedRing K] {ε x y c : K}

/-- Two values differ by at most a share of the second one. -/
def Within (ε x y : K) : Prop := |x - y| ≤ ε * |y|

instance (ε x y : K) : Decidable (Within ε x y) := inferInstanceAs (Decidable (_ ≤ _))

theorem within_self (hε : 0 ≤ ε) (x : K) : Within ε x x := by
  rw [Within, sub_self, abs_zero]
  exact mul_nonneg hε (abs_nonneg x)

theorem within_mul_right (hc : c ≠ 0) : Within ε (x * c) (y * c) ↔ Within ε x y := by
  rw [Within, Within, ← sub_mul, abs_mul, abs_mul, ← mul_assoc]
  exact mul_le_mul_iff_of_pos_right (abs_pos.mpr hc)

/-- **Monomials of the same exponent compare alike at every value but zero.** -/
theorem Monomial.within_iff (hf : Monomial n f) (hg : Monomial n g) (hv : v ≠ 0) :
    Within ε (f v) (g v) ↔ Within ε (f 1) (g 1) := by
  rw [hf v, hg v]
  exact within_mul_right (zpow_ne_zero n hv)

end Order

end Lib
