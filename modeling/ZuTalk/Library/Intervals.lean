/-
# Intervals that overlap only so often

Intervals of integers, the end not included.  The lengths of intervals add up to the number
of intervals around each point, taken over all points (`sum_length_eq`); so where no point
is in more than `n` of them, they are no longer together than `n` times the span they are
all in (`sum_length_le`).
-/

import Mathlib.Algebra.BigOperators.Group.Finset.Basic
import Mathlib.Algebra.Order.BigOperators.Group.Finset
import Mathlib.Data.Int.ConditionallyCompleteOrder
import Mathlib.Data.Int.Interval
import Mathlib.Order.ConditionallyCompleteLattice.Finset

namespace Intervals

/-- Whether the point is in the interval. -/
def contains (point : ℤ) (interval : ℤ × ℤ) : Bool :=
  interval.1 ≤ point && point < interval.2

theorem contains_iff {point : ℤ} {interval : ℤ × ℤ} :
    contains point interval = true ↔ interval.1 ≤ point ∧ point < interval.2 := by
  unfold contains
  rw [Bool.and_eq_true, decide_eq_true_eq, decide_eq_true_eq]

variable {lo hi : ℤ} {intervals : List (ℤ × ℤ)}

/-- The length of an interval counts its points. -/
theorem length_eq_sum {interval : ℤ × ℤ} (hlo : lo ≤ interval.1) (hle : interval.1 ≤ interval.2)
    (hhi : interval.2 ≤ hi) :
    interval.2 - interval.1 = ∑ point ∈ Finset.Ico lo hi,
      if contains point interval then (1 : ℤ) else 0 := by
  have hfilter : (Finset.Ico lo hi).filter (fun point => contains point interval = true) =
      Finset.Ico interval.1 interval.2 := by
    ext point
    rw [Finset.mem_filter, Finset.mem_Ico, Finset.mem_Ico, contains_iff]
    omega
  rw [← Finset.sum_filter, hfilter, Finset.sum_const, Int.card_Ico, nsmul_eq_mul, mul_one,
    Int.toNat_of_nonneg (by omega)]

/-- **The lengths add up** to the intervals around each point. -/
theorem sum_length_eq (h : ∀ interval ∈ intervals,
      lo ≤ interval.1 ∧ interval.1 ≤ interval.2 ∧ interval.2 ≤ hi) :
    (intervals.map fun interval => interval.2 - interval.1).sum =
      ∑ point ∈ Finset.Ico lo hi, (intervals.countP (contains point) : ℤ) := by
  induction intervals with
  | nil => simp
  | cons interval rest ih =>
      obtain ⟨⟨hlo, hle, hhi⟩, hrest⟩ := List.forall_mem_cons.1 h
      rw [List.map_cons, List.sum_cons, ih hrest, length_eq_sum hlo hle hhi,
        ← Finset.sum_add_distrib]
      refine Finset.sum_congr rfl fun point _ => ?_
      rw [List.countP_cons]
      split
      · rw [Nat.cast_add, add_comm]
        rfl
      · rw [add_zero, zero_add]

theorem sum_length_le {n : ℕ} (hle : lo ≤ hi) (h : ∀ interval ∈ intervals,
      lo ≤ interval.1 ∧ interval.1 ≤ interval.2 ∧ interval.2 ≤ hi)
    (hcount : ∀ point, intervals.countP (contains point) ≤ n) :
    (intervals.map fun interval => interval.2 - interval.1).sum ≤ n * (hi - lo) := by
  rw [sum_length_eq h]
  calc ∑ point ∈ Finset.Ico lo hi, (intervals.countP (contains point) : ℤ)
      ≤ ∑ _point ∈ Finset.Ico lo hi, (n : ℤ) :=
        Finset.sum_le_sum fun point _ => Int.ofNat_le.2 (hcount point)
    _ = n * (hi - lo) := by
        rw [Finset.sum_const, Int.card_Ico, nsmul_eq_mul, Int.toNat_of_nonneg (by omega), mul_comm]

end Intervals
