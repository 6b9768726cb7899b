import Mathlib.Analysis.Convex.StrictConvexBetween
import Mathlib.Analysis.InnerProductSpace.Convex
import Mathlib.Geometry.Euclidean.Angle.Unoriented.Basic

/-!
# Spherical interpolation

The interpolation between two unit vectors of a real inner product space along the great circle
through them, and the linear interpolation between vectors.

## Main definitions

* `SphericalInterpolation.weight` — the weight of an end point.
* `SphericalInterpolation.slerp` — the interpolated vector.

## Main results

* `SphericalInterpolation.norm_slerp`, `SphericalInterpolation.angle_slerp` — **it is a unit
  vector at the corresponding angle**.
* `SphericalInterpolation.norm_linear_iff` — when the length of a linear interpolation is the
  interpolated length.
-/

open Real InnerProductGeometry

open scoped RealInnerProductSpace

namespace SphericalInterpolation

/-- The weight of an end point, for an angle and the fraction of it that belongs to the other end
point. -/
noncomputable def weight (ω s : ℝ) : ℝ := sin (s * ω) / sin ω

section Weights

variable {ω : ℝ} (hω : sin ω ≠ 0)

include hω

theorem weight_one : weight ω 1 = 1 := by
  rw [weight, one_mul, div_self hω]

omit hω in
theorem weight_zero : weight ω 0 = 0 := by
  rw [weight, zero_mul, sin_zero, zero_div]

/-- The projection onto an end point. -/
theorem weight_add_weight_mul_cos (t : ℝ) :
    weight ω (1 - t) + weight ω t * cos ω = cos (t * ω) := by
  have hsplit : (1 - t) * ω = ω - t * ω := by ring
  unfold weight
  rw [div_mul_eq_mul_div, ← add_div, div_eq_iff hω, hsplit, sin_sub]
  ring

/-- The square of the length. -/
theorem weight_sq (t : ℝ) :
    weight ω (1 - t) * weight ω (1 - t) + weight ω t * weight ω t +
      (1 + 1) * (weight ω (1 - t) * weight ω t * cos ω) = 1 := by
  have hproj := weight_add_weight_mul_cos hω t
  have hweight : weight ω t * sin ω = sin (t * ω) := by
    rw [weight, div_mul_cancel₀ _ hω]
  calc _ = (weight ω (1 - t) + weight ω t * cos ω) ^ 2 +
          weight ω t ^ 2 * (1 - cos ω ^ 2) := by ring
    _ = cos (t * ω) ^ 2 + (weight ω t * sin ω) ^ 2 := by
        rw [hproj, ← sin_sq ω]
        ring
    _ = 1 := by rw [hweight, cos_sq_add_sin_sq]

end Weights

variable {V : Type*} [NormedAddCommGroup V] [InnerProductSpace ℝ V]

/-- The vector at a fraction `t` of the way from `u` to `v`. -/
noncomputable def slerp (u v : V) (t : ℝ) : V :=
  weight (angle u v) (1 - t) • u + weight (angle u v) t • v

section UnitVectors

variable {u v : V} (hu : ‖u‖ = 1) (hv : ‖v‖ = 1)

theorem sin_angle_ne_zero (h0 : angle u v ≠ 0) (hπ : angle u v ≠ π) : sin (angle u v) ≠ 0 := by
  intro hzero
  rcases sin_eq_zero_iff_angle_eq_zero_or_angle_eq_pi.mp hzero with h | h
  · exact h0 h
  · exact hπ h

include hu hv

theorem cos_angle_eq_inner : cos (angle u v) = ⟪u, v⟫ := by
  rw [cos_angle, hu, hv, mul_one, div_one]

theorem angle_eq_zero_iff_eq : angle u v = 0 ↔ u = v := by
  rw [← cos_eq_one_iff_angle_eq_zero, cos_angle_eq_inner hu hv]
  exact inner_eq_one_iff_of_norm_eq_one hu hv

theorem angle_eq_pi_iff_eq_neg : angle u v = π ↔ v = -u := by
  rw [← cos_eq_neg_one_iff_angle_eq_pi, cos_angle_eq_inner hu hv,
    inner_eq_neg_one_iff_of_norm_eq_one hu hv]
  exact ⟨fun h => by rw [h, neg_neg], fun h => by rw [h, neg_neg]⟩

variable (hsin : sin (angle u v) ≠ 0)

include hsin

theorem inner_slerp (t : ℝ) : ⟪u, slerp u v t⟫ = cos (t * angle u v) := by
  rw [slerp, inner_add_right, inner_smul_right, inner_smul_right, real_inner_self_eq_norm_sq, hu,
    one_pow, mul_one, ← cos_angle_eq_inner hu hv, weight_add_weight_mul_cos hsin]

/-- **The interpolation stays on the sphere.** -/
theorem norm_slerp (t : ℝ) : ‖slerp u v t‖ = 1 := by
  have hsq : ‖slerp u v t‖ ^ 2 = 1 := by
    rw [← real_inner_self_eq_norm_sq, slerp]
    simp only [inner_add_left, inner_add_right, inner_smul_left, inner_smul_right,
      real_inner_self_eq_norm_sq, hu, hv, real_inner_comm u v, ← cos_angle_eq_inner hu hv,
      conj_trivial]
    refine Eq.trans ?_ (weight_sq hsin t)
    ring
  exact (pow_eq_one_iff_of_nonneg (norm_nonneg _) two_ne_zero).mp hsq

/-- **The angle to the first end point.** -/
theorem angle_slerp {t : ℝ} (h0 : 0 ≤ t) (h1 : t ≤ 1) :
    angle u (slerp u v t) = t * angle u v := by
  have hle : t * angle u v ≤ π :=
    (mul_le_of_le_one_left (angle_nonneg u v) h1).trans (angle_le_pi u v)
  rw [angle, inner_slerp hu hv hsin, norm_slerp hu hv hsin, hu, mul_one, div_one]
  exact arccos_cos (mul_nonneg h0 (angle_nonneg u v)) hle

omit hu hv in
theorem slerp_zero : slerp u v 0 = u := by
  rw [slerp, sub_zero, weight_one hsin, weight_zero, one_smul, zero_smul, add_zero]

omit hu hv in
theorem slerp_one : slerp u v 1 = v := by
  rw [slerp, sub_self, weight_one hsin, weight_zero, one_smul, zero_smul, zero_add]

end UnitVectors

/-! ### Linear interpolation -/

section Linear

variable {u v : V} {t : ℝ}

/-- The linear interpolation of two vectors has the interpolated length if and only if it is at an
end or the vectors have the same direction. -/
theorem norm_linear_iff (hu : u ≠ 0) (hv : v ≠ 0) (h0 : 0 ≤ t) (h1 : t ≤ 1) :
    ‖(1 - t) • u + t • v‖ = (1 - t) * ‖u‖ + t * ‖v‖ ↔ angle u v = 0 ∨ t = 0 ∨ t = 1 := by
  have hleft : ‖(1 - t) • u‖ = (1 - t) * ‖u‖ := by
    rw [norm_smul, Real.norm_of_nonneg (by linarith)]
  have hright : ‖t • v‖ = t * ‖v‖ := by
    rw [norm_smul, Real.norm_of_nonneg h0]
  by_cases hzero : t = 0
  · refine iff_of_true ?_ (Or.inr (Or.inl hzero))
    rw [hzero, sub_zero, one_smul, zero_smul, add_zero, one_mul, zero_mul, add_zero]
  · by_cases hone : t = 1
    · refine iff_of_true ?_ (Or.inr (Or.inr hone))
      rw [hone, sub_self, one_smul, zero_smul, zero_add, one_mul, zero_mul, zero_add]
    · have htpos : 0 < t := lt_of_le_of_ne h0 (Ne.symm hzero)
      have hspos : 0 < 1 - t := by
        have hlt := lt_of_le_of_ne h1 hone
        linarith
      rw [← hleft, ← hright, norm_add_eq_add_norm_iff_angle_eq_zero (smul_ne_zero hspos.ne' hu)
        (smul_ne_zero htpos.ne' hv), angle_smul_left_of_pos _ _ hspos,
        angle_smul_right_of_pos _ _ htpos]
      exact ⟨Or.inl, fun h => h.resolve_right (not_or.mpr ⟨hzero, hone⟩)⟩

/-- The angle of a linear interpolation between vectors of the same direction. -/
theorem angle_linear_of_angle_eq_zero (h : angle u v = 0) (h0 : 0 ≤ t) (h1 : t ≤ 1) :
    angle u ((1 - t) • u + t • v) = 0 := by
  obtain ⟨hu, r, hr, rfl⟩ := angle_eq_zero_iff.mp h
  have hcombine : (1 - t) • u + t • r • u = (1 - t + t * r) • u := by
    rw [smul_smul, ← add_smul]
  have hpos : 0 < 1 - t + t * r := by
    rcases h0.eq_or_lt with rfl | ht
    · simp
    · have htr := mul_pos ht hr
      linarith
  rw [hcombine, angle_smul_right_of_pos _ _ hpos, angle_self hu]

end Linear

end SphericalInterpolation
