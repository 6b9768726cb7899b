import Mathlib.Algebra.BigOperators.Ring.Finset
import Mathlib.Algebra.Order.BigOperators.Ring.Finset
import Mathlib.Algebra.Order.Field.Basic
import Mathlib.Tactic.Linarith
import Mathlib.Tactic.Ring

/-!
# Solutions of least norm

Linear constraints have a solution of least norm, which is a combination of their rows.

## Main results

* `sum_mul_self_le_of_combination` — **a combination of the rows has the least sum of squares**.
* `card_mul_sum_sub_eq_zero_iff` — the Cauchy–Schwarz inequality is strict unless all numbers are
  the same.
* `foldl_max_spec` — the loop for the largest number.
-/

namespace Visr

/-- The loop of a running sum. -/
theorem foldl_add_eq_sum {M : Type*} [AddCommMonoid M] (f : ℕ → M) (n : ℕ) :
    (List.range n).foldl (fun b i => b + f i) 0 = ∑ i ∈ Finset.range n, f i := by
  induction n with
  | zero => rfl
  | succ n ih =>
    rw [List.range_succ, List.foldl_append, ih, Finset.sum_range_succ]
    rfl

/-- The loop for the largest number, that does not fall below `m`. -/
theorem foldl_max_spec {α : Type*} [LinearOrder α] (g : ℕ → α) (m : α) (n : ℕ) :
    let gMax := (List.range n).foldl (fun gMax i => if g i > gMax then g i else gMax) m
    m ≤ gMax ∧ (∀ i < n, g i ≤ gMax) ∧ (gMax = m ∨ ∃ i < n, gMax = g i) := by
  induction n with
  | zero => exact ⟨le_rfl, fun i hi => absurd hi (Nat.not_lt_zero i), Or.inl rfl⟩
  | succ n ih =>
    obtain ⟨hle, hupper, hattained⟩ := ih
    rw [List.range_succ, List.foldl_append, List.foldl_cons, List.foldl_nil]
    revert hle hupper hattained
    generalize (List.range n).foldl (fun gMax i => if g i > gMax then g i else gMax) m = gMax
    intro hle hupper hattained
    by_cases hlarger : g n > gMax
    · rw [if_pos hlarger]
      refine ⟨hle.trans hlarger.le, fun i hi => ?_, Or.inr ⟨n, Nat.lt_succ_self n, rfl⟩⟩
      rcases Nat.lt_succ_iff_lt_or_eq.mp hi with hlt | rfl
      · exact (hupper i hlt).trans hlarger.le
      · exact le_rfl
    · rw [if_neg hlarger]
      refine ⟨hle, fun i hi => ?_, ?_⟩
      · rcases Nat.lt_succ_iff_lt_or_eq.mp hi with hlt | rfl
        · exact hupper i hlt
        · exact not_lt.mp hlarger
      · rcases hattained with hm | ⟨i, hi, hgi⟩
        · exact Or.inl hm
        · exact Or.inr ⟨i, Nat.lt_succ_of_lt hi, hgi⟩

variable {K : Type*} [Field K] [LinearOrder K] [IsStrictOrderedRing K] {ι κ : Type*}
  {s : Finset ι} {t : Finset κ}

/-- **A combination of the rows has the least sum of squares** of all solutions of the
constraints. -/
theorem sum_mul_self_le_of_combination {rows : κ → ι → K} {weights : κ → K} {g h : ι → K}
    (hg : ∀ i ∈ s, g i = ∑ k ∈ t, weights k * rows k i)
    (hrows : ∀ k ∈ t, ∑ i ∈ s, h i * rows k i = ∑ i ∈ s, g i * rows k i) :
    ∑ i ∈ s, g i * g i ≤ ∑ i ∈ s, h i * h i := by
  -- the difference of the solutions is orthogonal to the rows
  have horthogonal : ∑ i ∈ s, (h i - g i) * g i = 0 := by
    have hzero : ∀ k ∈ t, weights k * ∑ i ∈ s, (h i - g i) * rows k i = 0 := by
      intro k hk
      simp only [sub_mul, Finset.sum_sub_distrib, hrows k hk, sub_self, mul_zero]
    rw [← Finset.sum_eq_zero hzero]
    simp only [Finset.mul_sum]
    rw [Finset.sum_comm]
    refine Finset.sum_congr rfl fun i hi => ?_
    rw [hg i hi, Finset.mul_sum]
    exact Finset.sum_congr rfl fun k _ => by ring
  have hsquares : ∑ i ∈ s, h i * h i =
      ∑ i ∈ s, g i * g i + ∑ i ∈ s, (h i - g i) * (h i - g i) := by
    have hdiff : ∑ i ∈ s, (h i * h i - g i * g i - (h i - g i) * (h i - g i)) = 0 := by
      rw [← mul_zero 2, ← horthogonal, Finset.mul_sum]
      exact Finset.sum_congr rfl fun i _ => by ring
    simp only [Finset.sum_sub_distrib] at hdiff
    linarith
  rw [hsquares]
  exact le_add_of_nonneg_right (Finset.sum_nonneg fun i _ => mul_self_nonneg _)

section Deviation

variable (a : ι → K)

omit [LinearOrder K] [IsStrictOrderedRing K] in
/-- The deviations from the mean, multiplied by the number of elements. -/
theorem sum_deviation : ∑ i ∈ s, (s.card * a i - ∑ k ∈ s, a k) * (s.card * a i - ∑ k ∈ s, a k) =
    s.card * (s.card * ∑ i ∈ s, a i * a i - (∑ i ∈ s, a i) * ∑ i ∈ s, a i) := by
  have hexpand : ∀ i, (s.card * a i - ∑ k ∈ s, a k) * (s.card * a i - ∑ k ∈ s, a k) =
      (s.card : K) * s.card * (a i * a i) - 2 * s.card * (∑ k ∈ s, a k) * a i +
        (∑ k ∈ s, a k) * ∑ k ∈ s, a k := fun i => by ring
  simp only [hexpand, Finset.sum_add_distrib, Finset.sum_sub_distrib, ← Finset.mul_sum,
    Finset.sum_const, nsmul_eq_mul]
  ring

variable (hs : s.Nonempty)

include hs

theorem card_mul_sum_sub_nonneg :
    0 ≤ s.card * ∑ i ∈ s, a i * a i - (∑ i ∈ s, a i) * ∑ i ∈ s, a i := by
  have hcard : (0 : K) < s.card := Nat.cast_pos.mpr hs.card_pos
  refine nonneg_of_mul_nonneg_right ?_ hcard
  rw [← sum_deviation]
  exact Finset.sum_nonneg fun i _ => mul_self_nonneg _

/-- **Equality holds** only for numbers that are all the same. -/
theorem card_mul_sum_sub_eq_zero_iff :
    s.card * ∑ i ∈ s, a i * a i - (∑ i ∈ s, a i) * ∑ i ∈ s, a i = 0 ↔
      ∀ i ∈ s, ∀ k ∈ s, a i = a k := by
  have hcard : (s.card : K) ≠ 0 := (Nat.cast_pos.mpr hs.card_pos).ne'
  rw [← mul_eq_zero_iff_left hcard, ← sum_deviation,
    Finset.sum_eq_zero_iff_of_nonneg fun i _ => mul_self_nonneg _]
  constructor
  · intro hzero i hi k hk
    have hmean : ∀ i ∈ s, s.card * a i = ∑ k ∈ s, a k := fun i hi =>
      sub_eq_zero.mp (mul_self_eq_zero.mp (hzero i hi))
    exact mul_left_cancel₀ hcard ((hmean i hi).trans (hmean k hk).symm)
  · intro hsame i hi
    rw [Finset.sum_congr rfl fun k hk => hsame k hk i hi, Finset.sum_const, nsmul_eq_mul,
      sub_self, mul_zero]

end Deviation

end Visr
