import Mathlib.Analysis.Complex.Basic
import Mathlib.Analysis.Complex.Trigonometric
import Mathlib.Tactic.FieldSimp
import Mathlib.Tactic.LinearCombination
import Mathlib.Tactic.Linarith

/-!
# Second-order sections

A second-order section is the quotient of two quadratic polynomials in the delay operator, with
real coefficients.  It is stable if the zeros of the denominator are outside of the closed unit
disk, where the delay operator is the inverse of the frequency variable.

## Main definitions

* `QuadraticPolynomial`, with its values `QuadraticPolynomial.eval`.
* `QuadraticPolynomial.Stable` — the inequalities of the stability triangle.
* `QuadraticPolynomial.resonator` — the polynomial with a resonance at a given angle.

## Main results

* `QuadraticPolynomial.Stable.eval_ne_zero` — **a stable polynomial has no zero in the closed unit
  disk**.
* `QuadraticPolynomial.norm_eval_reverse` — the reversed polynomial has the same modulus on the unit
  circle.
* `QuadraticPolynomial.eval_resonator` — the value of a resonator at its angle.
-/

open Complex

/-- The polynomial `c0 + c1 w + c2 w²` in the delay operator. -/
structure QuadraticPolynomial where
  c0 : ℝ
  c1 : ℝ
  c2 : ℝ

namespace QuadraticPolynomial

/-- The value of the polynomial. -/
def eval (q : QuadraticPolynomial) (w : ℂ) : ℂ := q.c0 + q.c1 * w + q.c2 * w ^ 2

/-- The polynomial with the coefficients in the other order. -/
def reverse (q : QuadraticPolynomial) : QuadraticPolynomial := ⟨q.c2, q.c1, q.c0⟩

/-- **The stability triangle.** -/
structure Stable (q : QuadraticPolynomial) : Prop where
  last : |q.c2| < q.c0
  middle : |q.c1| < q.c0 + q.c2

/-- The polynomial `(1 + β) - 2 cos ω w + (1 - β) w²`. -/
noncomputable def resonator (β ω : ℝ) : QuadraticPolynomial :=
  ⟨1 + β, -(1 + 1) * Real.cos ω, 1 - β⟩

/-! ### Stability -/

namespace Stable

variable {q : QuadraticPolynomial} (h : q.Stable)

include h

theorem c0_pos : 0 < q.c0 := (abs_nonneg q.c2).trans_lt h.last

/-- No real number up to one is a zero. -/
theorem eval_real_pos {x : ℝ} (hx : |x| ≤ 1) : 0 < q.c0 + q.c1 * x + q.c2 * x ^ 2 := by
  obtain ⟨hlast, hlast'⟩ := abs_lt.mp h.last
  obtain ⟨hmid, hmid'⟩ := abs_lt.mp h.middle
  obtain ⟨hx0, hx1⟩ := abs_le.mp hx
  rcases le_total 0 x with hpos | hneg
  · -- the polynomial is a combination of `c0 - c2` and of its value at one
    have hsplit : q.c0 + q.c1 * x + q.c2 * x ^ 2 =
        (q.c0 - q.c2 * x) * (1 - x) + (q.c0 + q.c2 + q.c1) * x := by ring
    have hfirst : 0 < q.c0 - q.c2 * x := by nlinarith
    have hsecond : 0 < q.c0 + q.c2 + q.c1 := by linarith
    rw [hsplit]
    rcases hpos.eq_or_lt with rfl | hpos
    · simpa using h.c0_pos
    · have := mul_nonneg hfirst.le (sub_nonneg.mpr hx1)
      have := mul_pos hsecond hpos
      linarith
  · have hsplit : q.c0 + q.c1 * x + q.c2 * x ^ 2 =
        (q.c0 + q.c2 * x) * (1 + x) + (q.c0 + q.c2 - q.c1) * -x := by ring
    have hfirst : 0 < q.c0 + q.c2 * x := by nlinarith
    have hsecond : 0 < q.c0 + q.c2 - q.c1 := by linarith
    rw [hsplit]
    rcases hneg.eq_or_lt with rfl | hneg
    · simpa using h.c0_pos
    · have := mul_nonneg hfirst.le (by linarith : 0 ≤ 1 + x)
      have := mul_pos hsecond (neg_pos.mpr hneg)
      linarith

/-- **A stable polynomial has no zero in the closed unit disk.**  A zero that is not real comes with
its conjugate, so that their product is the quotient of the outer coefficients. -/
theorem eval_ne_zero {w : ℂ} (hw : ‖w‖ ≤ 1) : q.eval w ≠ 0 := by
  intro hzero
  have hre : q.c0 + q.c1 * w.re + q.c2 * (w.re * w.re - w.im * w.im) = 0 := by
    simpa [eval, sq] using congrArg re hzero
  have him : q.c1 * w.im + q.c2 * (w.re * w.im + w.im * w.re) = 0 := by
    simpa [eval, sq] using congrArg im hzero
  have hnorm : w.re * w.re + w.im * w.im ≤ 1 := by
    rw [← normSq_apply, normSq_eq_norm_sq]
    exact pow_le_one₀ (norm_nonneg w) hw
  -- a zero on the real axis is excluded by the signs at both ends of the interval
  by_cases hreal : w.im = 0
  · refine (h.eval_real_pos ((abs_re_le_norm w).trans hw)).ne' ?_
    rw [hreal] at hre
    linear_combination hre
  · have hmid : q.c1 = -(2 * q.c2 * w.re) := by
      have : (q.c1 + 2 * q.c2 * w.re) * w.im = 0 := by linear_combination him
      have := (mul_eq_zero.mp this).resolve_right hreal
      linarith
    have hprod : q.c0 = q.c2 * (w.re * w.re + w.im * w.im) := by
      rw [hmid] at hre
      linear_combination hre
    have hle : q.c0 ≤ |q.c2| := by
      have hsq : 0 ≤ w.re * w.re + w.im * w.im :=
        add_nonneg (mul_self_nonneg _) (mul_self_nonneg _)
      calc q.c0 = q.c2 * (w.re * w.re + w.im * w.im) := hprod
        _ ≤ |q.c2| * (w.re * w.re + w.im * w.im) :=
          mul_le_mul_of_nonneg_right (le_abs_self q.c2) hsq
        _ ≤ |q.c2| * 1 := mul_le_mul_of_nonneg_left hnorm (abs_nonneg q.c2)
        _ = |q.c2| := mul_one _
    exact absurd h.last hle.not_gt

end Stable

/-! ### Values -/

@[simp] theorem eval_one (q : QuadraticPolynomial) : q.eval 1 = ((q.c0 + q.c1 + q.c2 : ℝ) : ℂ) := by
  simp [eval]

@[simp] theorem eval_neg_one (q : QuadraticPolynomial) :
    q.eval (-1) = ((q.c0 - q.c1 + q.c2 : ℝ) : ℂ) := by
  simp [eval, sub_eq_add_neg]

/-- The modulus on the unit circle does not depend on the order of the coefficients. -/
theorem norm_eval_reverse (q : QuadraticPolynomial) {w : ℂ} (hw : ‖w‖ = 1) :
    ‖q.reverse.eval w‖ = ‖q.eval w‖ := by
  have hsq : w * (starRingEnd ℂ) w = 1 := by
    rw [mul_conj, normSq_eq_norm_sq, hw]
    norm_num
  have hreverse : q.reverse.eval w = w ^ 2 * (starRingEnd ℂ) (q.eval w) := by
    simp only [eval, reverse, map_add, map_mul, map_pow, conj_ofReal]
    linear_combination (-(q.c1 : ℂ) * w - q.c2 * (1 + w * (starRingEnd ℂ) w)) * hsq
  rw [hreverse, norm_mul, norm_pow, hw, norm_conj, one_pow, one_mul]

/-- At its angle, a resonator is proportional to its parameter. -/
theorem eval_resonator (β ω : ℝ) :
    (resonator β ω).eval (exp (-(ω * I))) = 2 * I * sin ω * exp (-(ω * I)) * β := by
  have hw : exp (-(ω * I)) = cos ω - sin ω * I := by
    rw [← neg_mul, exp_mul_I, cos_neg, sin_neg]
    ring
  rw [hw]
  simp only [eval, resonator]
  push_cast
  linear_combination (-(1 + β : ℂ)) * sin_sq_add_cos_sq (ω : ℂ) + (1 + β) * sin (ω : ℂ) ^ 2 * I_sq

end QuadraticPolynomial
