import Visr.Library.SphericalInterpolation
import Visr.Librbbl.Quaternion

/-!
# Interpolation between rotations and between positions

## Main results

* `Rbbl.interpolatesQuaternions_iff` — equal quaternions cannot be interpolated.
* `Rbbl.interpolatesPositions_iff` — positions can, unless they are too short, or so close to each
  other that the linear interpolation is used.
* `Rbbl.interpolates_iff` — **when interpolations are what they are meant to be**.
-/

namespace Visr

namespace Rbbl

open AngleFunctions (real)

open InnerProductGeometry SphericalInterpolation

open scoped RealInnerProductSpace

variable {type : CoordinateType} {q0 q1 : Quaternion ℝ} {p0 p1 : Position3D ℝ} {t : ℝ}

/-- The interpolation is a unit quaternion at the corresponding angle. -/
def InterpolatesQuaternions (type : CoordinateType) (q0 q1 : Quaternion ℝ) (t : ℝ) : Prop :=
  ∃ q, interpolateSpherical real type q0 q1 t = .ok q ∧ quaternionNorm real q = 1 ∧
    (t = 0 → q = q0) ∧ (t = 1 → q = q1) ∧ angle q0 q = t * angle q0 q1

/-- The interpolation has the interpolated length and is at the corresponding angle. -/
def InterpolatesPositions (type : CoordinateType) (p0 p1 : Position3D ℝ) (t : ℝ) : Prop :=
  ∃ p, interpolateSphericalPosition real type p0 p1 t = .ok p ∧
    norm real p = (1 - t) * norm real p0 + t * norm real p1 ∧
    angle (asQuat p0) (asQuat p) = t * angle (asQuat p0) (asQuat p1)

/-! ### Quaternions -/

/-- The arc cosine of the dot product of unit vectors, which does not have to be clipped. -/
theorem arccos_inner (h0 : ‖q0‖ = 1) (h1 : ‖q1‖ = 1) : Real.arccos ⟪q0, q1⟫ = angle q0 q1 := by
  rw [angle, h0, h1, mul_one, div_one]

theorem clip_inner (h0 : ‖q0‖ = 1) (h1 : ‖q1‖ = 1) : -1 ≤ ⟪q0, q1⟫ ∧ ⟪q0, q1⟫ ≤ 1 := by
  have habs := abs_real_inner_le_norm q0 q1
  rw [h0, h1, mul_one] at habs
  exact abs_le.mp habs

/-- Unit quaternions, whose angle is used as it is. -/
theorem interpolateSpherical_eq (h0 : ‖q0‖ = 1) (h1 : ‖q1‖ = 1) (t : ℝ) :
    interpolateSpherical real type q0 q1 t = (do
      let sf1 ← divided (Real.sin ((1 - t) * angle q0 q1)) (Real.sin (angle q0 q1))
      let sf2 ← divided (Real.sin (t * angle q0 q1)) (Real.sin (angle q0 q1))
      .ok (sf1 • q0 + sf2 • q1)) := by
  have hunit : ∀ {q : Quaternion ℝ}, ‖q‖ = 1 → normalise real type q false false = .ok q := by
    intro q hq
    rw [normalise_eq (hq.symm ▸ (epsilon_lt_one type).le), hq, inv_one, one_smul]
  have hclip := clip_inner h0 h1
  have homega : real.acos (min 1 (max (-1) (quaternionDot q0 q1))) = angle q0 q1 := by
    rw [← inner_eq_dot, max_eq_right hclip.1, min_eq_right hclip.2]
    exact arccos_inner h0 h1
  unfold interpolateSpherical
  rw [hunit h0, hunit h1]
  show (do
    let sf1 ← divided (real.sin ((1 - t) * real.acos _)) (real.sin (real.acos _))
    let sf2 ← divided (real.sin (t * real.acos _)) (real.sin (real.acos _))
    .ok (sf1 • q0 + sf2 • q1)) = _
  rw [homega]
  rfl

/-- **Equal quaternions cannot be interpolated.** -/
theorem interpolatesQuaternions_iff (h0 : ‖q0‖ = 1) (h1 : ‖q1‖ = 1) (hopposite : q1 ≠ -q0)
    (ht : 0 ≤ t ∧ t ≤ 1) : InterpolatesQuaternions type q0 q1 t ↔ q0 ≠ q1 := by
  unfold InterpolatesQuaternions
  rw [interpolateSpherical_eq h0 h1]
  by_cases heq : q0 = q1
  · refine iff_of_false ?_ (not_not.mpr heq)
    rintro ⟨q, hok, -⟩
    rw [(angle_eq_zero_iff_eq h0 h1).mpr heq, Real.sin_zero, divided_zero] at hok
    cases hok
  · refine iff_of_true ?_ heq
    have hsin : Real.sin (angle q0 q1) ≠ 0 := by
      apply sin_angle_ne_zero
      · exact mt (angle_eq_zero_iff_eq h0 h1).mp heq
      · exact mt (angle_eq_pi_iff_eq_neg h0 h1).mp hopposite
    rw [divided_of_ne _ hsin, divided_of_ne _ hsin]
    refine ⟨slerp q0 q1 t, rfl, ?_, ?_, ?_, angle_slerp h0 h1 hsin ht.1 ht.2⟩
    · rw [quaternionNorm_eq, norm_slerp h0 h1 hsin]
    · rintro rfl
      exact slerp_zero hsin
    · rintro rfl
      exact slerp_one hsin

/-! ### Positions -/

/-- The unit vector in the direction of a position. -/
theorem norm_inv_smul {q : Quaternion ℝ} (h : q ≠ 0) : ‖‖q‖⁻¹ • q‖ = 1 := by
  rw [norm_smul, norm_inv, norm_norm, inv_mul_cancel₀ (norm_ne_zero_iff.mpr h)]

theorem angle_inv_smul (h0 : q0 ≠ 0) (h1 : q1 ≠ 0) :
    angle (‖q0‖⁻¹ • q0) (‖q1‖⁻¹ • q1) = angle q0 q1 := by
  rw [angle_smul_left_of_pos _ _ (inv_pos.mpr (norm_pos_iff.mpr h0)),
    angle_smul_right_of_pos _ _ (inv_pos.mpr (norm_pos_iff.mpr h1))]

theorem angleNormalised_eq (h0 : asQuat p0 ≠ 0) (h1 : asQuat p1 ≠ 0) :
    angleNormalised real (scalePosition ‖asQuat p0‖⁻¹ p0) (scalePosition ‖asQuat p1‖⁻¹ p1) =
      angle (asQuat p0) (asQuat p1) := by
  have hclip := clip_inner (norm_inv_smul h0) (norm_inv_smul h1)
  unfold angleNormalised
  rw [← inner_asQuat, asQuat_scale, asQuat_scale, min_eq_right hclip.2, max_eq_right hclip.1,
    ← angle_inv_smul h0 h1]
  exact arccos_inner (norm_inv_smul h0) (norm_inv_smul h1)

/-- The interpolation of vectors that are long enough, as quaternions. -/
theorem interpolateSphericalPosition_eq (h0 : type.epsilon ℝ ≤ ‖asQuat p0‖)
    (h1 : type.epsilon ℝ ≤ ‖asQuat p1‖) (hπ : angle (asQuat p0) (asQuat p1) ≠ Real.pi) (t : ℝ) :
    ∃ p, interpolateSphericalPosition real type p0 p1 t = .ok p ∧
      asQuat p =
        if angle (asQuat p0) (asQuat p1) < type.epsilon ℝ then
          (1 - t) • asQuat p0 + t • asQuat p1
        else ((1 - t) * ‖asQuat p0‖ + t * ‖asQuat p1‖) •
          slerp (‖asQuat p0‖⁻¹ • asQuat p0) (‖asQuat p1‖⁻¹ • asQuat p1) t := by
  have hne0 : asQuat p0 ≠ 0 := norm_pos_iff.mp ((epsilon_pos type).trans_le h0)
  have hne1 : asQuat p1 ≠ 0 := norm_pos_iff.mp ((epsilon_pos type).trans_le h1)
  unfold interpolateSphericalPosition
  rw [normalisePosition_eq h0, normalisePosition_eq h1, ok_bind, ok_bind]
  dsimp only
  rw [angleNormalised_eq hne0 hne1]
  by_cases hlt : angle (asQuat p0) (asQuat p1) < type.epsilon ℝ
  · rw [if_pos hlt, if_pos hlt]
    exact ⟨_, rfl, by rw [asQuat_add, asQuat_scale, asQuat_scale]⟩
  · have hsin : Real.sin (angle (asQuat p0) (asQuat p1)) ≠ 0 := by
      apply sin_angle_ne_zero _ hπ
      exact ((epsilon_pos type).trans_le (not_lt.mp hlt)).ne'
    -- the divisor is not zero, as the vectors are neither parallel nor opposite
    have hsf : divided 1 (real.sin (angle (asQuat p0) (asQuat p1))) =
        .ok (1 / Real.sin (angle (asQuat p0) (asQuat p1))) := divided_of_ne _ hsin
    rw [if_neg hlt, if_neg hlt, hsf]
    refine ⟨_, rfl, ?_⟩
    rw [slerp, angle_inv_smul hne0 hne1]
    simp only [asQuat_scale, asQuat_add, norm_asQuat, weight, one_div_mul_eq_div]
    rfl

/-- The spherical interpolation of the directions, with a linear interpolation of the lengths. -/
theorem slerp_of_positions (hp0 : asQuat p0 ≠ 0) (hp1 : asQuat p1 ≠ 0)
    (hsin : Real.sin (angle (asQuat p0) (asQuat p1)) ≠ 0) (ht : 0 ≤ t ∧ t ≤ 1) :
    let p := ((1 - t) * ‖asQuat p0‖ + t * ‖asQuat p1‖) •
      slerp (‖asQuat p0‖⁻¹ • asQuat p0) (‖asQuat p1‖⁻¹ • asQuat p1) t
    ‖p‖ = (1 - t) * ‖asQuat p0‖ + t * ‖asQuat p1‖ ∧
      angle (asQuat p0) p = t * angle (asQuat p0) (asQuat p1) := by
  have hpos0 := norm_pos_iff.mpr hp0
  have hpos1 := norm_pos_iff.mpr hp1
  rw [← angle_inv_smul hp0 hp1] at hsin
  have hradius : 0 < (1 - t) * ‖asQuat p0‖ + t * ‖asQuat p1‖ := by
    rcases ht.1.eq_or_lt with rfl | htpos
    · simpa using hpos0
    · have hleft := mul_nonneg (sub_nonneg.mpr ht.2) hpos0.le
      have hright := mul_pos htpos hpos1
      linarith
  intro p
  constructor
  · rw [norm_smul, norm_slerp (norm_inv_smul hp0) (norm_inv_smul hp1) hsin, mul_one,
      Real.norm_of_nonneg hradius.le]
  · rw [angle_smul_right_of_pos _ _ hradius, ← angle_smul_left_of_pos _ _ (inv_pos.mpr hpos0),
      angle_slerp (norm_inv_smul hp0) (norm_inv_smul hp1) hsin ht.1 ht.2, angle_inv_smul hp0 hp1]

/-- **Positions can be interpolated** if they are long enough, unless the angle between them is
that small that they are taken for parallel vectors. -/
theorem interpolatesPositions_iff (hp0 : asQuat p0 ≠ 0) (hp1 : asQuat p1 ≠ 0)
    (hπ : angle (asQuat p0) (asQuat p1) ≠ Real.pi) (ht : 0 ≤ t ∧ t ≤ 1) :
    InterpolatesPositions type p0 p1 t ↔
      type.epsilon ℝ ≤ norm real p0 ∧ type.epsilon ℝ ≤ norm real p1 ∧
        (angle (asQuat p0) (asQuat p1) = 0 ∨ type.epsilon ℝ ≤ angle (asQuat p0) (asQuat p1) ∨
          t = 0 ∨ t = 1) := by
  unfold InterpolatesPositions
  simp only [← norm_asQuat]
  by_cases h0 : type.epsilon ℝ ≤ ‖asQuat p0‖
  swap
  · refine iff_of_false ?_ fun h => h0 h.1
    rintro ⟨p, hok, -⟩
    rw [interpolateSphericalPosition, normalisePosition_error (not_le.mp h0)] at hok
    cases hok
  by_cases h1 : type.epsilon ℝ ≤ ‖asQuat p1‖
  swap
  · refine iff_of_false ?_ fun h => h1 h.2.1
    rintro ⟨p, hok, -⟩
    rw [interpolateSphericalPosition, normalisePosition_eq h0, ok_bind,
      normalisePosition_error (not_le.mp h1)] at hok
    cases hok
  obtain ⟨p, hok, hp⟩ := interpolateSphericalPosition_eq h0 h1 hπ t
  have hresult : (∃ p', interpolateSphericalPosition real type p0 p1 t = .ok p' ∧
      ‖asQuat p'‖ = (1 - t) * ‖asQuat p0‖ + t * ‖asQuat p1‖ ∧
      angle (asQuat p0) (asQuat p') = t * angle (asQuat p0) (asQuat p1)) ↔
      ‖asQuat p‖ = (1 - t) * ‖asQuat p0‖ + t * ‖asQuat p1‖ ∧
      angle (asQuat p0) (asQuat p) = t * angle (asQuat p0) (asQuat p1) := by
    rw [hok]
    simp
  rw [hresult, hp]
  by_cases hlt : angle (asQuat p0) (asQuat p1) < type.epsilon ℝ
  · -- the linear interpolation
    rw [if_pos hlt, norm_linear_iff hp0 hp1 ht.1 ht.2]
    constructor
    · rintro ⟨h | h, -⟩
      · exact ⟨h0, h1, Or.inl h⟩
      · exact ⟨h0, h1, Or.inr (Or.inr h)⟩
    · rintro ⟨-, -, h | h | rfl | rfl⟩
      · exact ⟨Or.inl h, by rw [angle_linear_of_angle_eq_zero h ht.1 ht.2, h, mul_zero]⟩
      · exact absurd hlt (not_lt.mpr h)
      · refine ⟨Or.inr (Or.inl rfl), ?_⟩
        rw [sub_zero, one_smul, zero_smul, add_zero, zero_mul, angle_self hp0]
      · refine ⟨Or.inr (Or.inr rfl), ?_⟩
        rw [sub_self, one_smul, zero_smul, zero_add, one_mul]
  · -- the spherical interpolation
    rw [if_neg hlt]
    refine iff_of_true ?_ ⟨h0, h1, Or.inr (Or.inl (not_lt.mp hlt))⟩
    have hangle : angle (asQuat p0) (asQuat p1) ≠ 0 :=
      ((epsilon_pos type).trans_le (not_lt.mp hlt)).ne'
    exact slerp_of_positions hp0 hp1 (sin_angle_ne_zero hangle hπ) ht

/-- **When interpolations are what they are meant to be.** -/
theorem interpolates_iff (type : CoordinateType) (h0 : ‖q0‖ = 1) (h1 : ‖q1‖ = 1)
    (hopposite : q1 ≠ -q0) (hp0 : asQuat p0 ≠ 0) (hp1 : asQuat p1 ≠ 0)
    (hπ : angle (asQuat p0) (asQuat p1) ≠ Real.pi) (ht : 0 ≤ t ∧ t ≤ 1) :
    (InterpolatesQuaternions type q0 q1 t ↔ q0 ≠ q1) ∧
      (InterpolatesPositions type p0 p1 t ↔
        type.epsilon ℝ ≤ norm real p0 ∧ type.epsilon ℝ ≤ norm real p1 ∧
          (angle (asQuat p0) (asQuat p1) = 0 ∨ type.epsilon ℝ ≤ angle (asQuat p0) (asQuat p1) ∨
            t = 0 ∨ t = 1)) :=
  ⟨interpolatesQuaternions_iff h0 h1 hopposite ht, interpolatesPositions_iff hp0 hp1 hπ ht⟩

/-- Half of a quarter turn. -/
theorem interpolates_quarter :
    InterpolatesQuaternions .float 1 (asQuat ⟨1, 0, 0⟩) (1 / 2) ∧
      InterpolatesPositions .float ⟨1, 0, 0⟩ ⟨0, 1, 0⟩ (1 / 2) := by
  have hunit : ∀ {p : Position3D ℝ}, p.dot p = 1 → ‖asQuat p‖ = 1 := by
    intro p hp
    rw [← inner_asQuat, real_inner_self_eq_norm_sq] at hp
    exact (pow_eq_one_iff_of_nonneg (norm_nonneg _) two_ne_zero).mp hp
  have hx : ‖asQuat (⟨1, 0, 0⟩ : Position3D ℝ)‖ = 1 := hunit (by simp [Vector3D.dot])
  have hy : ‖asQuat (⟨0, 1, 0⟩ : Position3D ℝ)‖ = 1 := hunit (by simp [Vector3D.dot])
  have hangle : angle (asQuat (⟨1, 0, 0⟩ : Position3D ℝ)) (asQuat ⟨0, 1, 0⟩) = Real.pi / 2 := by
    rw [← inner_eq_zero_iff_angle_eq_pi_div_two, inner_asQuat]
    simp [Vector3D.dot]
  have hneg : asQuat (⟨1, 0, 0⟩ : Position3D ℝ) ≠ -1 := by
    intro h
    have hre : (0 : ℝ) = -1 := congrArg (fun q => q.re) h
    norm_num at hre
  have hiff := interpolates_iff (t := 1 / 2) .float norm_one hx hneg
    (norm_ne_zero_iff.mp (by rw [hx]; exact one_ne_zero))
    (norm_ne_zero_iff.mp (by rw [hy]; exact one_ne_zero))
    (by rw [hangle]; exact (half_lt_self Real.pi_pos).ne) (by norm_num)
  refine ⟨hiff.1.mpr fun h => ?_, hiff.2.mpr ⟨?_, ?_, Or.inr (Or.inl ?_)⟩⟩
  · exact one_ne_zero (congrArg (fun q => q.re) h : (1 : ℝ) = 0)
  · rw [← norm_asQuat, hx]
    exact (epsilon_lt_one _).le
  · rw [← norm_asQuat, hy]
    exact (epsilon_lt_one _).le
  · have hpi := Real.two_le_pi
    have heps := epsilon_lt_one .float
    rw [hangle]
    linarith

/-- The identity and itself. -/
theorem not_interpolates_identity :
    ‖(1 : Quaternion ℝ)‖ = 1 ∧ (1 : Quaternion ℝ) ≠ -1 ∧ ¬InterpolatesQuaternions .float 1 1 0 := by
  have hneg : (1 : Quaternion ℝ) ≠ -1 := by
    intro h
    have hre : (1 : ℝ) = -1 := congrArg (fun q => q.re) h
    norm_num at hre
  refine ⟨norm_one, hneg, fun h => ?_⟩
  exact (interpolatesQuaternions_iff norm_one norm_one hneg (by norm_num)).mp h rfl

end Rbbl

end Visr
