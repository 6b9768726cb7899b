import Visr.Libefl.LagrangeCoefficientCalculator
import Visr.Library.Interpolation
import Visr.Librbbl.MultichannelDelayLine

/-!
# Lagrange coefficients

The coefficients of the interpolator are computed from the products of all differences but
one, which come from a recursion over pairs.

## Main results

* `LagrangeCoefficientCalculator.multiplyAndShuffle_eq` — what the recursion computes.
* `LagrangeCoefficientCalculator.calculateCoefficients_eq` — the coefficients are the weights
  of Lagrange interpolation.
* `LagrangeInterpolator.sample_eq_eval` — the interpolator is exact on polynomials.
-/

namespace Visr

open Polynomial

variable {K : Type} [Field K]

namespace LagrangeCoefficientCalculator

/-! ### The recursion -/

@[simp] theorem length_products (coeffs : List K) :
    (products coeffs).length = (coeffs.length + 1) / 2 := by
  fun_induction products coeffs with
  | case1 a b coeffs ih =>
    simp only [List.length_cons, ih]
    omega
  | case2 coeffs hshort =>
    match coeffs, hshort with
    | [], _ => simp
    | [_], _ => simp
    | a :: b :: coeffs, hshort => exact absurd rfl (hshort a b coeffs)

@[simp] theorem prod_products (coeffs : List K) : (products coeffs).prod = coeffs.prod := by
  fun_induction products coeffs with
  | case1 a b coeffs ih => simp [ih, mul_assoc]
  | case2 => rfl

/-- A common factor of the products may be applied before or after. -/
theorem shuffle_map_mul (c : K) (coeffs prod : List K) :
    shuffle coeffs (prod.map (c * ·)) = (shuffle coeffs prod).map (c * ·) := by
  fun_induction shuffle coeffs prod with
  | case1 a b coeffs p prod ih => simp [shuffle, ih, mul_left_comm]
  | case2 coeffs prod hshort =>
    match coeffs, prod, hshort with
    | [], _, _ => rfl
    | [_], _, _ => rfl
    | _ :: _ :: _, [], _ => rfl
    | a :: b :: coeffs, p :: prod, hshort => exact absurd rfl (hshort a b coeffs p prod rfl)

/-- One stage: from the products for the pairs to those for the elements. -/
theorem shuffle_leaveOneOut (coeffs : List K) :
    shuffle coeffs (leaveOneOut (products coeffs)) = leaveOneOut coeffs := by
  fun_induction products coeffs with
  | case1 a b coeffs ih =>
    have hpair : leaveOneOut (a * b :: coeffs) =
        coeffs.prod :: (leaveOneOut coeffs).map (a * b * ·) := rfl
    rw [leaveOneOut_cons_cons hpair, leaveOneOut_cons, prod_products, shuffle, shuffle_map_mul, ih]
  | case2 coeffs hshort =>
    match coeffs, hshort with
    | [], _ => rfl
    | [_], _ => rfl
    | a :: b :: coeffs, hshort => exact absurd rfl (hshort a b coeffs)

/-- With enough stages, the recursion replaces each element by the product of the others. -/
theorem multiplyAndShuffle_eq {stages : ℕ} {coeffs : List K} (hpos : 0 < coeffs.length)
    (hstages : coeffs.length ≤ stages) : multiplyAndShuffle stages coeffs = leaveOneOut coeffs := by
  induction stages generalizing coeffs with
  | zero => omega
  | succ stages ih =>
    unfold multiplyAndShuffle
    split
    next hlong =>
      have hhalf := length_products coeffs
      rw [ih (by omega) (by omega), shuffle_leaveOneOut]
    next hshort =>
      match coeffs, hpos, hshort with
      | [a], _, _ => simp
      | [a, b], _, _ => simp
      | _ :: _ :: _ :: _, _, hshort => simp at hshort

/-! ### The coefficients -/

/-- A product with one element skipped. -/
theorem foldl_skip (l : List ℕ) (idx : ℕ) (f : ℕ → K) (acc : K) :
    l.foldl (fun acc runIdx => if runIdx ≠ idx then acc * f runIdx else acc) acc =
      acc * (l.map fun runIdx => if runIdx ≠ idx then f runIdx else 1).prod := by
  induction l generalizing acc with
  | nil => simp
  | cons runIdx l ih =>
    rw [List.foldl_cons, ih, List.map_cons, List.prod_cons, ← mul_assoc]
    congr 1
    split
    · rfl
    · rw [mul_one]

theorem scaleFactor_eq (N idx : ℕ) : scaleFactor K N idx =
    1 / ∏ runIdx ∈ Finset.range (N + 1),
      if runIdx ≠ idx then offset K N runIdx - offset K N idx else 1 := by
  unfold scaleFactor
  rw [foldl_skip (List.range (N + 1)) idx (fun runIdx => offset K N runIdx - offset K N idx),
    one_mul]
  rfl

/-- **The coefficients** are the weights of the interpolation with the offsets as nodes. -/
theorem calculateCoefficients_eq (N : ℕ) (mu : K) :
    calculateCoefficients N mu =
      (List.range (N + 1)).map fun idx => lagrangeWeight (N + 1) (offset K N) idx mu := by
  unfold calculateCoefficients
  rw [multiplyAndShuffle_eq (by simp) (by simp), leaveOneOut_map_range, List.zipWith_map,
    List.zipWith_self]
  apply List.map_congr_left
  intro idx _
  rw [scaleFactor_eq, one_div, ← Finset.prod_inv_distrib, ← Finset.prod_mul_distrib]
  refine Finset.prod_congr rfl fun runIdx _ => ?_
  split
  · rw [div_eq_inv_mul]
  · simp

theorem offset_injective [CharZero K] (N : ℕ) : Function.Injective (offset K N) := by
  intro idx idx' h
  exact Nat.cast_injective (sub_right_injective h)

end LagrangeCoefficientCalculator

namespace LagrangeInterpolator

open LagrangeCoefficientCalculator

variable [LinearOrder K] [FloorRing K]

/-- **Exactness.**  If the samples around a position are those of a polynomial whose degree is
at most the order, then the result is its value half the order after that position. -/
theorem sample_eq_eval [CharZero K] {q : LagrangeInterpolator} {basePointer : ℤ → K} {p : K[X]}
    {delay : K} (hp : p.natDegree ≤ q.order)
    (hread : ∀ idx ≤ q.order,
      basePointer (baseOffset delay + (idx : ℕ)) = p.eval ((baseOffset delay : K) + (idx : ℕ)))
    (gain : K) :
    q.sample basePointer delay gain = gain * p.eval (delay + q.methodDelay K) := by
  -- the polynomial as a function of the offset from the middle of the samples
  let shifted := p.comp (X + C ((baseOffset delay : K) + q.methodDelay K))
  have hdegree : shifted.degree < (q.order + 1 : ℕ) := by
    have hnat : shifted.natDegree ≤ q.order := by
      rw [natDegree_comp, natDegree_X_add_C, mul_one]
      exact hp
    exact lt_of_le_of_lt (degree_le_of_natDegree_le hnat) (by exact_mod_cast Nat.lt_succ_self _)
  rw [sample_eq, calculateCoefficients_eq, sum_zipWith_reverse_map_range]
  congr 1
  have hexact := sum_lagrangeWeight (offset_injective (K := K) q.order) hdegree
    (delay - (baseOffset delay : K))
  have heval : shifted.eval (delay - (baseOffset delay : K)) = p.eval (delay + q.methodDelay K) := by
    simp only [shifted, eval_comp, eval_add, eval_X, eval_C]
    congr 1
    ring
  rw [heval] at hexact
  rw [← hexact]
  refine Finset.sum_congr rfl fun idx hidx => ?_
  have hle : idx ≤ q.order := Nat.lt_succ_iff.mp (Finset.mem_range.mp hidx)
  rw [Nat.add_sub_cancel, hread _ (Nat.sub_le _ _)]
  congr 1
  simp only [shifted, eval_comp, eval_add, eval_X, eval_C]
  congr 1
  unfold offset methodDelay
  rw [Nat.cast_sub hle]
  ring

end LagrangeInterpolator

end Visr
