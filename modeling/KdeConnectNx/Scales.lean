import Mathlib.Algebra.Order.Group.Unbundled.Int
import Mathlib.Tactic.Linarith

/-!
# Integers moved between two scales

A reading of `x` out of `m` is moved to a scale of `n` with one product and one
quotient that is cut towards zero. Where the result stays on the scale, and
when the way back gives the reading again, is decided by the product alone.
-/

namespace KdeConnectNx.Scales

variable {m n x : ℤ}

/-- `x` out of `m`, on a scale of `n`. -/
def rescale (m n x : ℤ) : ℤ := (x * n).tdiv m

theorem rescale_of_nonneg (hx : 0 ≤ x) (hn : 0 ≤ n) : rescale m n x = x * n / m :=
  Int.tdiv_eq_ediv_of_nonneg (mul_nonneg hx hn)

theorem tdiv_of_neg (hx : x < 0) : x.tdiv m = -(-x / m) := by
  rw [← Int.tdiv_eq_ediv_of_nonneg (by omega : 0 ≤ -x), Int.neg_tdiv, Int.neg_neg]

/-- A quotient that is cut towards zero is negative from a whole divisor on. -/
theorem tdiv_nonneg_iff (hm : 0 < m) : 0 ≤ x.tdiv m ↔ -m < x := by
  rcases le_or_gt 0 x with hx | hx
  · refine iff_of_true (Int.tdiv_nonneg hx hm.le) ?_
    omega
  · have hzero : 0 ≤ -x / m := Int.ediv_nonneg (by omega) hm.le
    have hlt : -x / m < 1 ↔ -x < 1 * m := Int.ediv_lt_iff_lt_mul hm
    rw [tdiv_of_neg hx]
    omega

/-- It is at most a bound as long as the next multiple is not reached. -/
theorem tdiv_le_iff (hm : 0 < m) (hn : 0 ≤ n) : x.tdiv m ≤ n ↔ x < (n + 1) * m := by
  rcases le_or_gt 0 x with hx | hx
  · rw [Int.tdiv_eq_ediv_of_nonneg hx, ← Int.ediv_lt_iff_lt_mul hm]
    omega
  · have hzero : 0 ≤ -x / m := Int.ediv_nonneg (by omega) hm.le
    have hpos : 0 < (n + 1) * m := mul_pos (by omega) hm
    rw [tdiv_of_neg hx]
    omega

/-- A reading stays on the scale it is moved to if its product lies between a
divisor below zero and a divisor above the end of the scale. -/
theorem rescale_mem_iff (hm : 0 < m) (hn : 0 ≤ n) :
    (0 ≤ rescale m n x ∧ rescale m n x ≤ n) ↔ -m < x * n ∧ x * n < (n + 1) * m :=
  and_congr (tdiv_nonneg_iff hm) (tdiv_le_iff hm hn)

theorem rescale_nonneg (hx : 0 ≤ x) (hm : 0 ≤ m) (hn : 0 ≤ n) : 0 ≤ rescale m n x :=
  Int.tdiv_nonneg (mul_nonneg hx hn) hm

/-- Readings up to the end of one scale are moved to the other scale. -/
theorem rescale_le (hm : 0 < m) (hn : 0 ≤ n) (hx : x ≤ m) : rescale m n x ≤ n := by
  refine (tdiv_le_iff hm hn).mpr ?_
  have hle : x * n ≤ m * n := mul_le_mul_of_nonneg_right hx hn
  linarith

/-- There and back gives the reading again exactly if nothing is cut on the way
there. -/
theorem rescale_rescale_eq_iff (hm : 0 < m) (hn : 0 < n) (hx : 0 ≤ x) :
    rescale n m (rescale m n x) = x ↔ m ∣ x * n := by
  have hnonneg : 0 ≤ rescale m n x := rescale_nonneg hx hm.le hn.le
  rw [rescale_of_nonneg hnonneg hm.le, rescale_of_nonneg hx hn.le]
  constructor
  · intro hback
    have hlow : x * n / m * m ≤ x * n := Int.ediv_mul_le _ hm.ne'
    have hhigh : x * n ≤ x * n / m * m := by
      calc x * n = x * n / m * m / n * n := by rw [hback]
        _ ≤ x * n / m * m := Int.ediv_mul_le _ hn.ne'
    exact Dvd.intro_left _ (le_antisymm hlow hhigh)
  · intro hdvd
    rw [Int.ediv_mul_cancel hdvd, Int.mul_ediv_cancel _ hn.ne']

end KdeConnectNx.Scales
