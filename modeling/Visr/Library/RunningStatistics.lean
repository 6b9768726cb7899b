import Mathlib.Algebra.BigOperators.Group.List.Basic
import Mathlib.Algebra.CharZero.Defs
import Mathlib.Algebra.Field.Basic
import Mathlib.Data.Nat.Cast.Basic
import Mathlib.Tactic.FieldSimp
import Mathlib.Tactic.LinearCombination
import Mathlib.Tactic.Ring

/-!
# Running statistics

The mean of a list of numbers and the sum of the squared deviations from it can be updated when a
further number arrives, without access to the numbers before it.

## Main definitions

* `mean`, `squaredDeviations`, `sampleVariance` — the statistics of a list.

## Main results

* `sum_sq_sub` — the squared deviations from another number.
* `mean_concat`, `squaredDeviations_concat` — **the updates**.
-/

namespace RunningStatistics

variable {K : Type*} [Field K]

/-- The arithmetic mean. -/
def mean (l : List K) : K := l.sum / l.length

/-- The sum of the squared deviations from the mean. -/
def squaredDeviations (l : List K) : K := (l.map fun x => (x - mean l) ^ 2).sum

/-- The unbiased variance of a sample. -/
def sampleVariance (l : List K) : K := squaredDeviations l / (l.length - 1)

@[simp] theorem mean_nil : mean ([] : List K) = 0 := by
  simp [mean]

@[simp] theorem squaredDeviations_nil : squaredDeviations ([] : List K) = 0 := rfl

theorem mean_singleton (x : K) : mean [x] = x := by
  simp [mean]

theorem squaredDeviations_singleton (x : K) : squaredDeviations [x] = 0 := by
  simp [squaredDeviations, mean_singleton]

section Updates

variable [CharZero K]

/-- This is true of the empty list, too. -/
theorem length_mul_mean (l : List K) : l.length * mean l = l.sum := by
  cases l with
  | nil => simp
  | cons a l => exact mul_div_cancel₀ _ (Nat.cast_ne_zero.mpr l.length.succ_ne_zero)

omit [CharZero K] in
/-- The squares are expanded. -/
theorem sum_sq_sub_expanded (l : List K) (c : K) :
    (l.map fun x => (x - c) ^ 2).sum =
      (l.map fun x => x ^ 2).sum - 2 * c * l.sum + l.length * c ^ 2 := by
  induction l with
  | nil => simp
  | cons a l ih =>
    simp only [List.map_cons, List.sum_cons, ih, List.length_cons, Nat.cast_succ]
    ring

/-- The squared deviations from another number than the mean. -/
theorem sum_sq_sub (l : List K) (c : K) :
    (l.map fun x => (x - c) ^ 2).sum = squaredDeviations l + l.length * (mean l - c) ^ 2 := by
  rw [squaredDeviations, sum_sq_sub_expanded, sum_sq_sub_expanded, ← length_mul_mean l]
  ring

/-- **A further number changes the mean** by a part of its difference from the mean. -/
theorem mean_concat (l : List K) (x : K) :
    mean (l ++ [x]) = mean l + 1 / ((l.length + 1 : ℕ) : K) * (x - mean l) := by
  have hne : ((l.length + 1 : ℕ) : K) ≠ 0 := Nat.cast_ne_zero.mpr l.length.succ_ne_zero
  have hsum : (l ++ [x]).sum = l.length * mean l + x := by
    rw [List.sum_append, length_mul_mean, List.sum_singleton]
  rw [mean, hsum, List.length_append, List.length_singleton]
  field_simp
  push_cast
  ring

/-- **A further number changes the squared deviations** by the product of its differences from
the old mean and from the new one. -/
theorem squaredDeviations_concat (l : List K) (x : K) :
    squaredDeviations (l ++ [x]) =
      squaredDeviations l + (x - mean l) * (x - mean (l ++ [x])) := by
  have hne : ((l.length : K) + 1) ≠ 0 := Nat.cast_add_one_ne_zero l.length
  have hmean := mean_concat l x
  rw [squaredDeviations, List.map_append, List.sum_append, sum_sq_sub, List.map_singleton,
    List.sum_singleton, add_assoc]
  generalize mean (l ++ [x]) = m at hmean ⊢
  -- the difference of the means is the common factor
  have hdiff : x - mean l = (l.length + 1) * (m - mean l) := by
    rw [hmean]
    push_cast
    field_simp
    ring
  have hnew : x - m = l.length * (m - mean l) := by
    linear_combination hdiff
  rw [hnew, hdiff]
  ring

end Updates

end RunningStatistics
