import Visr.Librbbl.EulerAngles

/-!
# Representations of rotations

Which rotations are found again from their angles, or from their axis.

## Main results

* `Rbbl.sameRotation_of_columns` — a quaternion is known from a column and a row of its matrix.
* `Rbbl.fromYPR_angles_iff` — **the rotation for the angles of a rotation**.
* `Rbbl.setRotationVector_iff` — **the rotation about the axis of a rotation**.
-/

namespace Visr

namespace Rbbl

open AngleFunctions (real)

variable {q q' : Quaternion ℝ}

/-- Both represent the same rotation. -/
def SameRotation (q' q : Quaternion ℝ) : Prop := q' = q ∨ q' = -q

/-- The sine of the pitch angle. -/
def sinPitch (q : Quaternion ℝ) : ℝ := (1 + 1) * (q.re * q.imJ - q.imK * q.imI)

/-! ### Angles -/

/-- A rotation that leaves the x axis where it is. -/
theorem imJ_imK_eq_zero (h : ‖q‖ = 1) (hx : rotate ⟨1, 0, 0⟩ q = ⟨1, 0, 0⟩) :
    q.imJ = 0 ∧ q.imK = 0 := by
  rw [(rotate_units h).1, Vector3D.mk.injEq] at hx
  have hsum : q.imJ * q.imJ + q.imK * q.imK = 0 := by linarith [hx.1]
  exact mul_self_add_mul_self_eq_zero.mp hsum

/-- The height after a rotation. -/
theorem rotate_z (p : Position3D ℝ) (q : Quaternion ℝ) :
    (rotate p q).z = p.x * (rotate ⟨1, 0, 0⟩ q).z + p.y * (rotate ⟨0, 1, 0⟩ q).z +
      p.z * (rotate ⟨0, 0, 1⟩ q).z := by
  simp [rotate]
  ring

/-- Rotations about the x axis. -/
theorem rotate_of_imJ_imK {g : Quaternion ℝ} (hJ : g.imJ = 0) (hK : g.imK = 0) :
    rotate ⟨0, 1, 0⟩ g = ⟨0, g.re * g.re - g.imI * g.imI, (1 + 1) * (g.re * g.imI)⟩ ∧
      rotate ⟨0, 0, 1⟩ g = ⟨0, -((1 + 1) * (g.re * g.imI)), g.re * g.re - g.imI * g.imI⟩ := by
  refine ⟨?_, ?_⟩
  · ext <;> simp [rotate, hJ, hK] <;> ring
  · ext <;> simp [rotate, hJ, hK] <;> ring

/-- **A quaternion is known from a column and a row of its rotation matrix**, unless all other
elements of these are zero. -/
theorem sameRotation_of_columns (h : ‖q‖ = 1) (h' : ‖q'‖ = 1)
    (hx : rotate ⟨1, 0, 0⟩ q = rotate ⟨1, 0, 0⟩ q')
    (hy : (rotate ⟨0, 1, 0⟩ q).z = (rotate ⟨0, 1, 0⟩ q').z)
    (hz : (rotate ⟨0, 0, 1⟩ q).z = (rotate ⟨0, 0, 1⟩ q').z)
    (hne : (rotate ⟨0, 1, 0⟩ q').z ^ 2 + (rotate ⟨0, 0, 1⟩ q').z ^ 2 ≠ 0) :
    SameRotation q' q := by
  -- the second rotation is a rotation about the x axis and the first one
  obtain ⟨g, hg⟩ : ∃ g, g = star q' * q := ⟨_, rfl⟩
  have hunit : ‖g‖ = 1 := by
    rw [hg, norm_mul, Quaternion.norm_star, h, h', one_mul]
  have hq : q = q' * g := by
    rw [hg, ← mul_assoc, Quaternion.self_mul_star, Quaternion.normSq_eq_norm_mul_self, h', one_mul,
      Quaternion.coe_one, one_mul]
  have hfix : rotate ⟨1, 0, 0⟩ g = ⟨1, 0, 0⟩ := by
    rw [hg, rotate_mul, hx, rotate_star _ h']
  obtain ⟨hJ, hK⟩ := imJ_imK_eq_zero hunit hfix
  have hone := re_sq_add hunit
  rw [hJ, hK, mul_zero, add_zero, add_zero] at hone
  obtain ⟨a, ha⟩ : ∃ a, a = (rotate ⟨0, 1, 0⟩ q').z := ⟨_, rfl⟩
  obtain ⟨b, hb⟩ : ∃ b, b = (rotate ⟨0, 0, 1⟩ q').z := ⟨_, rfl⟩
  obtain ⟨hturnY, hturnZ⟩ := rotate_of_imJ_imK hJ hK
  have hrowY : (g.re * g.re - g.imI * g.imI) * a + (1 + 1) * (g.re * g.imI) * b = a := by
    rw [hq, rotate_mul, hturnY, rotate_z, ← ha, ← hb] at hy
    linear_combination hy
  have hrowZ : (g.re * g.re - g.imI * g.imI) * b - (1 + 1) * (g.re * g.imI) * a = b := by
    rw [hq, rotate_mul, hturnZ, rotate_z, ← ha, ← hb] at hz
    linear_combination hz
  rw [← ha, ← hb] at hne
  have hI : g.imI = 0 := by
    have hprod : (1 + 1) * (g.imI * g.imI) * (a ^ 2 + b ^ 2) = 0 := by
      linear_combination (-a) * hrowY - b * hrowZ + (a ^ 2 + b ^ 2) * hone
    have hsq := (mul_eq_zero.mp hprod).resolve_right hne
    have htwo : (1 + 1 : ℝ) ≠ 0 := by norm_num
    exact mul_self_eq_zero.mp ((mul_eq_zero.mp hsq).resolve_left htwo)
  rw [hI, mul_zero, add_zero, mul_self_eq_one_iff] at hone
  rcases hone with hre | hre
  · have hgone : g = 1 := by
      ext
      · exact hre
      · exact hI
      · exact hJ
      · exact hK
    exact Or.inl (by rw [hq, hgone, mul_one])
  · have hgone : g = -1 := by
      rw [← neg_eq_iff_eq_neg]
      ext
      · exact neg_eq_iff_eq_neg.mpr hre
      · exact neg_eq_zero.mpr hI
      · exact neg_eq_zero.mpr hJ
      · exact neg_eq_zero.mpr hK
    exact Or.inr (by rw [hq, hgone, mul_neg, mul_one, neg_neg])

/-- The angle of a point with known distance. -/
theorem polar_atan2 {r a b : ℝ} (hr : 0 < r) (h : a * a + b * b = r * r) :
    r * Real.cos (real.atan2 b a) = a ∧ r * Real.sin (real.atan2 b a) = b := by
  have hnorm : ‖(⟨a, b⟩ : ℂ)‖ = r := by
    rw [Complex.norm_def, Complex.normSq_mk, h, Real.sqrt_mul_self hr.le]
  have hne : (⟨a, b⟩ : ℂ) ≠ 0 := norm_pos_iff.mp (by rw [hnorm]; exact hr)
  refine ⟨?_, ?_⟩
  · show r * Real.cos (Complex.arg ⟨a, b⟩) = a
    rw [Complex.cos_arg hne, hnorm, mul_div_cancel₀ _ hr.ne']
  · show r * Real.sin (Complex.arg ⟨a, b⟩) = b
    rw [Complex.sin_arg, hnorm, mul_div_cancel₀ _ hr.ne']

/-- The first column and the last row of the rotation matrix are unit vectors. -/
theorem sq_add_sinPitch (h : ‖q‖ = 1) :
    (1 - (1 + 1) * (q.imJ * q.imJ + q.imK * q.imK)) *
          (1 - (1 + 1) * (q.imJ * q.imJ + q.imK * q.imK)) +
        (1 + 1) * (q.re * q.imK + q.imI * q.imJ) * ((1 + 1) * (q.re * q.imK + q.imI * q.imJ)) =
      1 - sinPitch q ^ 2 ∧
    (1 - (1 + 1) * (q.imI * q.imI + q.imJ * q.imJ)) *
          (1 - (1 + 1) * (q.imI * q.imI + q.imJ * q.imJ)) +
        (1 + 1) * (q.re * q.imI + q.imJ * q.imK) * ((1 + 1) * (q.re * q.imI + q.imJ * q.imK)) =
      1 - sinPitch q ^ 2 := by
  have hone := re_sq_add h
  unfold sinPitch
  refine ⟨?_, ?_⟩
  · linear_combination 4 * (q.imJ * q.imJ + q.imK * q.imK) * hone
  · linear_combination 4 * (q.imI * q.imI + q.imJ * q.imJ) * hone

theorem abs_sinPitch_le (h : ‖q‖ = 1) : |sinPitch q| ≤ 1 := by
  rw [← sq_le_one_iff_abs_le_one]
  obtain ⟨hx, -⟩ := sq_add_sinPitch h
  have hnonneg := add_nonneg
    (mul_self_nonneg (1 - (1 + 1) * (q.imJ * q.imJ + q.imK * q.imK)))
    (mul_self_nonneg ((1 + 1) * (q.re * q.imK + q.imI * q.imJ)))
  linarith

/-- The angles of a rotation that is not through a right angle. -/
theorem sameRotation_fromYPR (h : ‖q‖ = 1) (hlt : |sinPitch q| < 1) :
    SameRotation (fromYPR real (yaw real q) (pitch real q) (roll real q)) q := by
  obtain ⟨hfirst, hlast⟩ := sq_add_sinPitch h
  have hpitch : pitch real q = Real.arcsin (sinPitch q) := by
    unfold pitch
    exact if_neg (not_le.mpr hlt)
  obtain ⟨hge, hle⟩ := abs_le.mp hlt.le
  have hsin : Real.sin (pitch real q) = sinPitch q := by
    rw [hpitch, Real.sin_arcsin hge hle]
  have hcos : 0 < Real.cos (pitch real q) := by
    rw [hpitch, Real.cos_arcsin]
    exact Real.sqrt_pos.mpr (by linarith [sq_lt_one_iff_abs_lt_one _ |>.mpr hlt])
  have hcosSq : Real.cos (pitch real q) * Real.cos (pitch real q) = 1 - sinPitch q ^ 2 := by
    rw [← hsin, ← Real.cos_sq']
    ring
  -- the arguments of both arctangents are polar coordinates with the cosine of the pitch as radius
  obtain ⟨hA, hB⟩ := polar_atan2 hcos (hfirst.trans hcosSq.symm)
  obtain ⟨hD, hC⟩ := polar_atan2 hcos (hlast.trans hcosSq.symm)
  obtain ⟨hA', hB', hs', hC', hD'⟩ :=
    arguments_fromYPR (yaw real q) (pitch real q) (roll real q)
  have hunit' := norm_fromYPR (yaw real q) (pitch real q) (roll real q)
  obtain ⟨hx, hy, hz⟩ := rotate_units h
  obtain ⟨hx', hy', hz'⟩ := rotate_units hunit'
  -- the first column and the last row, whose other elements are not both zero
  refine sameRotation_of_columns h hunit' ?_ ?_ ?_ ?_
  · rw [hx, hx', Vector3D.mk.injEq]
    refine ⟨?_, ?_, congrArg Neg.neg ?_⟩
    · exact (hA'.trans hA).symm
    · exact (hB'.trans hB).symm
    · exact (hs'.trans hsin).symm
  · rw [hy, hy']
    exact (hC'.trans hC).symm
  · rw [hz, hz']
    exact (hD'.trans hD).symm
  · rw [hy', hz', hC', hD', mul_pow, mul_pow, ← mul_add, Real.sin_sq_add_cos_sq, mul_one]
    exact pow_ne_zero 2 hcos.ne'

/-- The components of a rotation through a right angle. -/
theorem components_of_sinPitch (h : ‖q‖ = 1) {u : ℝ} (hu : u * u = 1) (hs : sinPitch q = u) :
    q.imJ = u * q.re ∧ q.imK = -(u * q.imI) := by
  have hone := re_sq_add h
  unfold sinPitch at hs
  have hsum : (q.imJ - u * q.re) * (q.imJ - u * q.re) +
      (q.imK + u * q.imI) * (q.imK + u * q.imI) = 0 := by
    linear_combination hone + (q.re * q.re + q.imI * q.imI) * hu - u * hs - hu
  obtain ⟨hJ, hK⟩ := mul_self_add_mul_self_eq_zero.mp hsum
  exact ⟨by linarith, by linarith⟩

theorem atan2_zero : real.atan2 0 0 = 0 := Complex.arg_zero

/-- Half of a right angle. -/
theorem fromYPR_right_angle {u : ℝ} (hu : u = 1 ∨ u = -1) :
    fromYPR real 0 (u * (Real.pi / 2)) 0 = ⟨√2 / 2, 0, u * (√2 / 2), 0⟩ := by
  have hquarter : Real.pi / 2 * (1 + 1)⁻¹ = Real.pi / 4 := by
    rw [one_add_one_eq_two]
    ring
  have hangle : Real.cos (u * (Real.pi / 2) * (1 + 1)⁻¹) = √2 / 2 ∧
      Real.sin (u * (Real.pi / 2) * (1 + 1)⁻¹) = u * (√2 / 2) := by
    rw [mul_assoc, hquarter]
    rcases hu with hu | hu
    · rw [hu, one_mul, one_mul]
      exact ⟨Real.cos_pi_div_four, Real.sin_pi_div_four⟩
    · rw [hu, neg_one_mul, neg_one_mul, Real.cos_neg, Real.sin_neg]
      exact ⟨Real.cos_pi_div_four, congrArg Neg.neg Real.sin_pi_div_four⟩
  unfold fromYPR
  ext <;> simp [real, hangle.1, hangle.2]

/-- There is no angle left for yaw and roll. -/
theorem angles_right_angle (h : ‖q‖ = 1) {u : ℝ} (hu : u = 1 ∨ u = -1) (hs : sinPitch q = u) :
    yaw real q = 0 ∧ pitch real q = u * (Real.pi / 2) ∧ roll real q = 0 := by
  have husq : u * u = 1 := mul_self_eq_one_iff.mpr hu
  obtain ⟨hJ, hK⟩ := components_of_sinPitch h husq hs
  have hone := re_sq_add h
  rw [hJ, hK] at hone
  refine ⟨?_, ?_, ?_⟩
  · unfold yaw
    -- both arguments of the arctangent are zero
    have hsin : (1 + 1) * (q.re * q.imK + q.imI * q.imJ) = 0 := by
      rw [hJ, hK]
      ring
    have hcos : 1 - (1 + 1) * (q.imJ * q.imJ + q.imK * q.imK) = 0 := by
      rw [hJ, hK]
      linear_combination (-1) * hone - (q.re * q.re + q.imI * q.imI) * husq
    rw [hsin, hcos, atan2_zero]
  · unfold pitch copysign
    dsimp only
    have habs : |real.pi / (1 + 1)| = Real.pi / 2 := by
      show |Real.pi / (1 + 1)| = _
      rw [one_add_one_eq_two, abs_of_pos (by positivity)]
    rw [show (1 + 1) * (q.re * q.imJ - q.imK * q.imI) = u from hs, habs]
    rcases hu with hu | hu
    · rw [hu, if_pos (by simp), if_neg (by norm_num), one_mul]
    · rw [hu, if_pos (by simp), if_pos (by norm_num), neg_one_mul]
  · unfold roll
    have hsin : (1 + 1) * (q.re * q.imI + q.imJ * q.imK) = 0 := by
      rw [hJ, hK]
      linear_combination (-2) * q.re * q.imI * husq
    have hcos : 1 - (1 + 1) * (q.imI * q.imI + q.imJ * q.imJ) = 0 := by
      rw [hJ]
      linear_combination (-1) * hone + (q.imI * q.imI - q.re * q.re) * husq
    rw [hsin, hcos, atan2_zero]

/-- Of the rotations through a right angle only those about the y axis are found again. -/
theorem sameRotation_right_angle (h : ‖q‖ = 1) {u : ℝ} (hu : u = 1 ∨ u = -1)
    (hs : sinPitch q = u) :
    SameRotation (fromYPR real (yaw real q) (pitch real q) (roll real q)) q ↔
      q.imI = 0 ∧ q.imK = 0 := by
  have husq : u * u = 1 := mul_self_eq_one_iff.mpr hu
  obtain ⟨hJ, hK⟩ := components_of_sinPitch h husq hs
  obtain ⟨hyaw, hpitch, hroll⟩ := angles_right_angle h hu hs
  have hone := re_sq_add h
  rw [hJ, hK] at hone
  -- the other two components have the same length as these
  have hhalf : q.re * q.re + q.imI * q.imI = 1 / 2 := by
    linear_combination hone / 2 - (q.re * q.re + q.imI * q.imI) * husq / 2
  rw [hyaw, hroll, hpitch, fromYPR_right_angle hu]
  refine ⟨?_, ?_⟩
  · rintro (heq | heq)
    · exact ⟨(congrArg (fun r => r.imI) heq).symm, (congrArg (fun r => r.imK) heq).symm⟩
    · exact ⟨neg_eq_zero.mp (congrArg (fun r => r.imI) heq).symm,
        neg_eq_zero.mp (congrArg (fun r => r.imK) heq).symm⟩
  · rintro ⟨hI, hK'⟩
    have hroot : √2 / 2 * (√2 / 2) = 1 / 2 := by
      linear_combination Real.mul_self_sqrt (zero_le_two : (0 : ℝ) ≤ 2) / 4
    rw [hI, mul_zero, add_zero, ← hroot, mul_self_eq_mul_self_iff] at hhalf
    rcases hhalf with hre | hre
    · refine Or.inl ?_
      ext
      · exact hre.symm
      · exact hI.symm
      · rw [hJ, hre]
      · exact hK'.symm
    · refine Or.inr ?_
      ext
      · show √2 / 2 = -q.re
        rw [hre, neg_neg]
      · exact (neg_eq_zero.mpr hI).symm
      · show u * (√2 / 2) = -q.imJ
        rw [hJ, hre, mul_neg, neg_neg]
      · exact (neg_eq_zero.mpr hK').symm

/-- **The rotation for the angles of a rotation.** -/
theorem fromYPR_angles_iff (h : ‖q‖ = 1) :
    SameRotation (fromYPR real (yaw real q) (pitch real q) (roll real q)) q ↔
      |sinPitch q| < 1 ∨ (q.imI = 0 ∧ q.imK = 0) := by
  by_cases hlt : |sinPitch q| < 1
  · exact iff_of_true (sameRotation_fromYPR h hlt) (Or.inl hlt)
  · have hone : |sinPitch q| = 1 := le_antisymm (abs_sinPitch_le h) (not_lt.mp hlt)
    rw [or_iff_right hlt]
    exact sameRotation_right_angle h (eq_or_eq_neg_of_abs_eq hone) rfl

/-! ### Axes -/

theorem vectorNorm_mul_self (q : Quaternion ℝ) :
    vectorNorm real q * vectorNorm real q = q.imI * q.imI + q.imJ * q.imJ + q.imK * q.imK :=
  Real.mul_self_sqrt
    (add_nonneg (add_nonneg (mul_self_nonneg _) (mul_self_nonneg _)) (mul_self_nonneg _))

theorem vectorNorm_nonneg (q : Quaternion ℝ) : 0 ≤ vectorNorm real q := Real.sqrt_nonneg _

/-- Half of the angle. -/
theorem cos_sin_rotationAngle (h : ‖q‖ = 1) :
    real.cos (1 / (1 + 1) * rotationAngle real q) = q.re ∧
      real.sin (1 / (1 + 1) * rotationAngle real q) = vectorNorm real q := by
  have hcircle : q.re * q.re + vectorNorm real q * vectorNorm real q = 1 * 1 := by
    rw [vectorNorm_mul_self]
    linear_combination re_sq_add h
  have hangle : 1 / (1 + 1) * rotationAngle real q = real.atan2 (vectorNorm real q) q.re := by
    unfold rotationAngle
    ring
  obtain ⟨hcos, hsin⟩ := polar_atan2 one_pos hcircle
  rw [one_mul] at hcos hsin
  rw [hangle]
  exact ⟨hcos, hsin⟩

variable {type : CoordinateType}

/-- A unit vector is an axis. -/
theorem setRotationVector_eq {axis : Position3D ℝ} (haxis : normSquare axis = 1) (angle : ℝ) :
    setRotationVector real type axis angle =
      .ok ⟨real.cos (1 / (1 + 1) * angle), real.sin (1 / (1 + 1) * angle) * axis.x,
        real.sin (1 / (1 + 1) * angle) * axis.y, real.sin (1 / (1 + 1) * angle) * axis.z⟩ := by
  have hnorm : ‖asQuat axis‖ = 1 := by
    rw [norm_asQuat]
    unfold norm
    rw [haxis]
    exact Real.sqrt_one
  have hlong : type.epsilon ℝ ≤ ‖asQuat axis‖ := by
    rw [hnorm]
    exact (epsilon_lt_one type).le
  unfold setRotationVector
  rw [normalisePosition_eq hlong, hnorm, inv_one]
  show Except.ok _ = _
  simp [scalePosition]

/-- The axis is a unit vector. -/
theorem normSquare_rotationVector (q : Quaternion ℝ) :
    normSquare (rotationVector real type q) = 1 := by
  unfold rotationVector
  dsimp only
  split
  · simp [normSquare]
  · rename_i hlong
    have hpos : 0 < vectorNorm real q := (epsilon_pos type).trans (not_le.mp hlong)
    have hnorm := vectorNorm_mul_self q
    unfold normSquare
    dsimp only
    field_simp
    linear_combination -hnorm

variable (type) in
/-- **The rotation about the axis of a rotation.** -/
theorem setRotationVector_iff (h : ‖q‖ = 1) :
    ∃ q', setRotationVector real type (rotationVector real type q) (rotationAngle real q) = .ok q' ∧
      (SameRotation q' q ↔
        type.epsilon ℝ < vectorNorm real q ∨ (0 ≤ q.imI ∧ q.imJ = 0 ∧ q.imK = 0)) := by
  obtain ⟨hcos, hsin⟩ := cos_sin_rotationAngle h
  refine ⟨_, setRotationVector_eq (normSquare_rotationVector q) _, ?_⟩
  rw [hcos, hsin]
  unfold rotationVector
  dsimp only
  by_cases hshort : vectorNorm real q ≤ type.epsilon ℝ
  · rw [if_pos hshort, or_iff_right (not_lt.mpr hshort)]
    dsimp only
    rw [mul_one, mul_zero]
    have hnorm := vectorNorm_mul_self q
    have hone := re_sq_add h
    constructor
    · rintro (heq | heq)
      · have hI : vectorNorm real q = q.imI := congrArg (fun r => r.imI) heq
        exact ⟨hI ▸ vectorNorm_nonneg q, (congrArg (fun r => r.imJ) heq).symm,
          (congrArg (fun r => r.imK) heq).symm⟩
      · -- the real part of a short rotation is not zero
        exfalso
        have hre : q.re = -q.re := congrArg (fun r => r.re) heq
        have hlt := hshort.trans_lt (epsilon_lt_one type)
        have hsq : vectorNorm real q * vectorNorm real q < 1 :=
          mul_lt_one_of_nonneg_of_lt_one_left (vectorNorm_nonneg q) hlt hlt.le
        have hzero : q.re = 0 := by linarith
        rw [hzero] at hone
        linarith
    · rintro ⟨hI, hJ, hK⟩
      rw [hJ, hK, mul_zero, add_zero, add_zero] at hnorm
      have heq := (mul_self_inj (vectorNorm_nonneg q) hI).mp hnorm
      refine Or.inl ?_
      ext
      · rfl
      · exact heq
      · exact hJ.symm
      · exact hK.symm
  · have hlong := not_le.mp hshort
    have hne : vectorNorm real q ≠ 0 := ((epsilon_pos type).trans hlong).ne'
    rw [if_neg hshort]
    refine iff_of_true (Or.inl ?_) (Or.inl hlong)
    ext
    · rfl
    · show vectorNorm real q * (1 / vectorNorm real q * q.imI) = q.imI
      rw [← mul_assoc, mul_one_div_cancel hne, one_mul]
    · show vectorNorm real q * (1 / vectorNorm real q * q.imJ) = q.imJ
      rw [← mul_assoc, mul_one_div_cancel hne, one_mul]
    · show vectorNorm real q * (1 / vectorNorm real q * q.imK) = q.imK
      rw [← mul_assoc, mul_one_div_cancel hne, one_mul]

end Rbbl

end Visr
