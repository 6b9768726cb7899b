import Visr.Librbbl.Quaternion

/-!
# Yaw, pitch and roll

The quaternion for three angles is that of the rotations about the coordinate axes, one after the
other, and the angles are found again in it.

## Main results

* `Rbbl.rotate_mul`, `Rbbl.rotate_star` — products and conjugates.
* `Rbbl.rotate_fromYPR` — **the rotation for three angles**.
* `Rbbl.ypr_roundTrip` — **the angles are found again**.
-/

namespace Visr

namespace Rbbl

open AngleFunctions (real)

/-! ### Products and conjugates -/

section Rotations

variable {K : Type} [CommRing K]

/-- The rotated position is a position again. -/
theorem asQuat_rotate (pos : Position3D K) (rot : Quaternion K) :
    asQuat (rotate pos rot) = rot * asQuat pos * star rot := by
  ext
  · simp
    ring
  · rfl
  · rfl
  · rfl

/-- The rotation as a function of the coordinates. -/
theorem rotate_eq (pos : Position3D K) (rot : Quaternion K) :
    rotate pos rot =
      ⟨((rot * asQuat pos) * star rot).imI, ((rot * asQuat pos) * star rot).imJ,
        ((rot * asQuat pos) * star rot).imK⟩ := rfl

/-- **Products** are rotations one after the other. -/
theorem rotate_mul (pos : Position3D K) (q1 q2 : Quaternion K) :
    rotate pos (q1 * q2) = rotate (rotate pos q2) q1 := by
  rw [rotate_eq (rotate pos q2), asQuat_rotate, rotate_eq pos, star_mul]
  simp only [mul_assoc]

end Rotations

variable {q : Quaternion ℝ}

theorem re_sq_add (h : ‖q‖ = 1) :
    q.re * q.re + q.imI * q.imI + q.imJ * q.imJ + q.imK * q.imK = 1 := by
  have hnorm : Quaternion.normSq q = 1 := by
    rw [Quaternion.normSq_eq_norm_mul_self, h, one_mul]
  rw [Quaternion.normSq_def'] at hnorm
  linear_combination hnorm

/-- **The conjugate** of a unit quaternion undoes the rotation. -/
theorem rotate_star (pos : Position3D ℝ) (h : ‖q‖ = 1) : rotate (rotate pos q) (star q) = pos := by
  have hone : star q * q = 1 := by
    rw [Quaternion.star_mul_self, Quaternion.normSq_eq_norm_mul_self, h, one_mul,
      Quaternion.coe_one]
  rw [← rotate_mul, hone]
  simp [rotate]

/-! ### Rotations about the axes -/

/-- The rotation about the x axis. -/
noncomputable def rotateX (a : ℝ) (p : Position3D ℝ) : Position3D ℝ :=
  ⟨p.x, p.y * Real.cos a - p.z * Real.sin a, p.y * Real.sin a + p.z * Real.cos a⟩

/-- The rotation about the y axis. -/
noncomputable def rotateY (a : ℝ) (p : Position3D ℝ) : Position3D ℝ :=
  ⟨p.x * Real.cos a + p.z * Real.sin a, p.y, p.z * Real.cos a - p.x * Real.sin a⟩

/-- The rotation about the z axis. -/
noncomputable def rotateZ (a : ℝ) (p : Position3D ℝ) : Position3D ℝ :=
  ⟨p.x * Real.cos a - p.y * Real.sin a, p.x * Real.sin a + p.y * Real.cos a, p.z⟩

noncomputable def aboutX (a : ℝ) : Quaternion ℝ :=
  ⟨Real.cos (a / (1 + 1)), Real.sin (a / (1 + 1)), 0, 0⟩

noncomputable def aboutY (a : ℝ) : Quaternion ℝ :=
  ⟨Real.cos (a / (1 + 1)), 0, Real.sin (a / (1 + 1)), 0⟩

noncomputable def aboutZ (a : ℝ) : Quaternion ℝ :=
  ⟨Real.cos (a / (1 + 1)), 0, 0, Real.sin (a / (1 + 1))⟩

@[simp] theorem re_aboutX (a : ℝ) : (aboutX a).re = Real.cos (a / 2) := by
  rw [aboutX, one_add_one_eq_two]

@[simp] theorem imI_aboutX (a : ℝ) : (aboutX a).imI = Real.sin (a / 2) := by
  rw [aboutX, one_add_one_eq_two]

@[simp] theorem imJ_aboutX (a : ℝ) : (aboutX a).imJ = 0 := rfl

@[simp] theorem imK_aboutX (a : ℝ) : (aboutX a).imK = 0 := rfl

@[simp] theorem re_aboutY (a : ℝ) : (aboutY a).re = Real.cos (a / 2) := by
  rw [aboutY, one_add_one_eq_two]

@[simp] theorem imI_aboutY (a : ℝ) : (aboutY a).imI = 0 := rfl

@[simp] theorem imJ_aboutY (a : ℝ) : (aboutY a).imJ = Real.sin (a / 2) := by
  rw [aboutY, one_add_one_eq_two]

@[simp] theorem imK_aboutY (a : ℝ) : (aboutY a).imK = 0 := rfl

@[simp] theorem re_aboutZ (a : ℝ) : (aboutZ a).re = Real.cos (a / 2) := by
  rw [aboutZ, one_add_one_eq_two]

@[simp] theorem imI_aboutZ (a : ℝ) : (aboutZ a).imI = 0 := rfl

@[simp] theorem imJ_aboutZ (a : ℝ) : (aboutZ a).imJ = 0 := rfl

@[simp] theorem imK_aboutZ (a : ℝ) : (aboutZ a).imK = Real.sin (a / 2) := by
  rw [aboutZ, one_add_one_eq_two]

/-- The sine and cosine of an angle, from those of its half. -/
theorem sin_cos_half (a : ℝ) :
    Real.sin a = 2 * (Real.sin (a / 2) * Real.cos (a / 2)) ∧
      Real.cos a = Real.cos (a / 2) ^ 2 - Real.sin (a / 2) ^ 2 ∧
      Real.cos (a / 2) ^ 2 + Real.sin (a / 2) ^ 2 = 1 := by
  have htwice : 2 * (a / 2) = a := by ring
  refine ⟨?_, ?_, Real.cos_sq_add_sin_sq _⟩
  · rw [← mul_assoc, ← Real.sin_two_mul, htwice]
  · rw [← Real.cos_two_mul', htwice]

theorem rotate_aboutX (a : ℝ) (p : Position3D ℝ) : rotate p (aboutX a) = rotateX a p := by
  obtain ⟨hsin, hcos, hone⟩ := sin_cos_half a
  unfold rotateX
  rw [hsin, hcos]
  ext
  · simp [rotate]
    linear_combination p.x * hone
  · simp [rotate]
    ring
  · simp [rotate]
    ring

theorem rotate_aboutY (a : ℝ) (p : Position3D ℝ) : rotate p (aboutY a) = rotateY a p := by
  obtain ⟨hsin, hcos, hone⟩ := sin_cos_half a
  unfold rotateY
  rw [hsin, hcos]
  ext
  · simp [rotate]
    ring
  · simp [rotate]
    linear_combination p.y * hone
  · simp [rotate]
    ring

theorem rotate_aboutZ (a : ℝ) (p : Position3D ℝ) : rotate p (aboutZ a) = rotateZ a p := by
  obtain ⟨hsin, hcos, hone⟩ := sin_cos_half a
  unfold rotateZ
  rw [hsin, hcos]
  ext
  · simp [rotate]
    ring
  · simp [rotate]
    ring
  · simp [rotate]
    linear_combination p.z * hone

theorem fromYPR_eq (yaw pitch roll : ℝ) :
    fromYPR real yaw pitch roll = aboutZ yaw * aboutY pitch * aboutX roll := by
  have hhalf : ∀ a : ℝ, a * (1 / (1 + 1)) = a / 2 := by
    intro a
    ring
  -- the products are expanded, part by part
  simp only [fromYPR, real, hhalf]
  ext
  · simp
  · simp
    ring
  · simp
    ring
  · simp
    ring

/-- **The rotation for three angles.** -/
theorem rotate_fromYPR (yaw pitch roll : ℝ) (p : Position3D ℝ) :
    rotate p (fromYPR real yaw pitch roll) = rotateZ yaw (rotateY pitch (rotateX roll p)) := by
  rw [fromYPR_eq, rotate_mul, rotate_mul, rotate_aboutX, rotate_aboutY, rotate_aboutZ]

theorem norm_fromYPR (yaw pitch roll : ℝ) : ‖fromYPR real yaw pitch roll‖ = 1 := by
  have hunit : ∀ {q : Quaternion ℝ} {a : ℝ},
      Quaternion.normSq q = Real.cos (a / 2) ^ 2 + Real.sin (a / 2) ^ 2 → ‖q‖ = 1 := by
    intro q a h
    rw [Real.cos_sq_add_sin_sq, Quaternion.normSq_eq_norm_mul_self, ← sq] at h
    exact (pow_eq_one_iff_of_nonneg (norm_nonneg _) two_ne_zero).mp h
  rw [fromYPR_eq, norm_mul, norm_mul, hunit (q := aboutZ yaw) (a := yaw),
    hunit (q := aboutY pitch) (a := pitch), hunit (q := aboutX roll) (a := roll), one_mul, one_mul]
  · simp [Quaternion.normSq_def']
  · simp [Quaternion.normSq_def']
  · simp [Quaternion.normSq_def']

/-! ### The angles of a rotation -/

/-- The arguments of the inverse functions are coordinates of rotated unit vectors. -/
theorem rotate_units (h : ‖q‖ = 1) :
    rotate ⟨1, 0, 0⟩ q =
        ⟨1 - (1 + 1) * (q.imJ * q.imJ + q.imK * q.imK), (1 + 1) * (q.re * q.imK + q.imI * q.imJ),
          -((1 + 1) * (q.re * q.imJ - q.imK * q.imI))⟩ ∧
      (rotate ⟨0, 1, 0⟩ q).z = (1 + 1) * (q.re * q.imI + q.imJ * q.imK) ∧
      (rotate ⟨0, 0, 1⟩ q).z = 1 - (1 + 1) * (q.imI * q.imI + q.imJ * q.imJ) := by
  have hone := re_sq_add h
  refine ⟨?_, ?_, ?_⟩
  · ext
    · simp [rotate]
      linear_combination hone
    · simp [rotate]
      ring
    · simp [rotate]
      ring
  · simp [rotate]
    ring
  · simp [rotate]
    linear_combination hone

/-- The angle of a point with positive distance. -/
theorem atan2_polar {r a : ℝ} (hr : 0 < r) (ha : a ∈ Set.Ioc (-Real.pi) Real.pi) :
    real.atan2 (r * Real.sin a) (r * Real.cos a) = a := by
  refine Eq.trans (congrArg Complex.arg ?_) (Complex.arg_mul_cos_add_sin_mul_I hr ha)
  apply Complex.ext
  · simp [Complex.cos_ofReal_re, Complex.sin_ofReal_im]
  · simp [Complex.sin_ofReal_re, Complex.cos_ofReal_im]

section RoundTrip

variable {yawAngle pitchAngle rollAngle : ℝ}

/-- The rotation matrix, as far as it is used for the angles. -/
theorem arguments_fromYPR (yawAngle pitchAngle rollAngle : ℝ) :
    let q := fromYPR real yawAngle pitchAngle rollAngle
    1 - (1 + 1) * (q.imJ * q.imJ + q.imK * q.imK) = Real.cos pitchAngle * Real.cos yawAngle ∧
      (1 + 1) * (q.re * q.imK + q.imI * q.imJ) = Real.cos pitchAngle * Real.sin yawAngle ∧
      (1 + 1) * (q.re * q.imJ - q.imK * q.imI) = Real.sin pitchAngle ∧
      (1 + 1) * (q.re * q.imI + q.imJ * q.imK) = Real.cos pitchAngle * Real.sin rollAngle ∧
      1 - (1 + 1) * (q.imI * q.imI + q.imJ * q.imJ) =
        Real.cos pitchAngle * Real.cos rollAngle := by
  intro q
  obtain ⟨hx, hy, hz⟩ := rotate_units (norm_fromYPR yawAngle pitchAngle rollAngle)
  rw [rotate_fromYPR] at hx hy hz
  refine ⟨?_, ?_, ?_, ?_, ?_⟩
  · refine (congrArg Vector3D.x hx).symm.trans ?_
    simp [rotateX, rotateY, rotateZ]
  · refine (congrArg Vector3D.y hx).symm.trans ?_
    simp [rotateX, rotateY, rotateZ]
  · refine neg_injective ((congrArg Vector3D.z hx).symm.trans ?_)
    simp [rotateX, rotateY, rotateZ]
  · refine hy.symm.trans ?_
    simp [rotateX, rotateY, rotateZ]
    ring
  · refine hz.symm.trans ?_
    simp [rotateX, rotateY, rotateZ]
    ring

/-- **The angles are found again**, and the quaternion is that of the three rotations, with which
products and conjugates of quaternions agree. -/
theorem ypr_roundTrip (hyaw : yawAngle ∈ Set.Ioc (-Real.pi) Real.pi)
    (hpitch : pitchAngle ∈ Set.Ioo (-(Real.pi / 2)) (Real.pi / 2))
    (hroll : rollAngle ∈ Set.Ioc (-Real.pi) Real.pi) :
    quaternionNorm real (fromYPR real yawAngle pitchAngle rollAngle) = 1 ∧
      yaw real (fromYPR real yawAngle pitchAngle rollAngle) = yawAngle ∧
      pitch real (fromYPR real yawAngle pitchAngle rollAngle) = pitchAngle ∧
      roll real (fromYPR real yawAngle pitchAngle rollAngle) = rollAngle ∧
      (∀ p, rotate p (fromYPR real yawAngle pitchAngle rollAngle) =
        rotateZ yawAngle (rotateY pitchAngle (rotateX rollAngle p))) ∧
      (∀ (p : Position3D ℝ) (q1 q2 : Quaternion ℝ),
        rotate p (q1 * q2) = rotate (rotate p q2) q1) ∧
      ∀ (p : Position3D ℝ) (q : Quaternion ℝ), quaternionNorm real q = 1 →
        rotate (rotate p q) (star q) = p := by
  obtain ⟨hcosYaw, hsinYaw, hsinPitch, hsinRoll, hcosRoll⟩ :=
    arguments_fromYPR yawAngle pitchAngle rollAngle
  -- the cosine of the pitch is a common factor of the arguments, which does not change the angle
  have hpos : 0 < Real.cos pitchAngle := Real.cos_pos_of_mem_Ioo hpitch
  refine ⟨?_, ?_, ?_, ?_, rotate_fromYPR _ _ _, fun p q1 q2 => rotate_mul p q1 q2, ?_⟩
  · rw [quaternionNorm_eq, norm_fromYPR]
  · rw [yaw, hsinYaw, hcosYaw, atan2_polar hpos hyaw]
  · have hlt : |Real.sin pitchAngle| < 1 := by
      rw [← sq_lt_one_iff_abs_lt_one]
      have hsq := Real.sin_sq_add_cos_sq pitchAngle
      have hcos := pow_pos hpos 2
      linarith
    unfold pitch
    dsimp only
    rw [hsinPitch, if_neg (not_le.mpr hlt)]
    exact Real.arcsin_sin hpitch.1.le hpitch.2.le
  · rw [roll, hsinRoll, hcosRoll, atan2_polar hpos hroll]
  · intro p q hq
    rw [quaternionNorm_eq] at hq
    exact rotate_star p hq

/-- A half turn about the x axis and then a quarter turn about the vertical axis. -/
theorem ypr_roundTrip_quarter :
    yaw real (fromYPR real (Real.pi / 2) 0 Real.pi) = Real.pi / 2 ∧
      roll real (fromYPR real (Real.pi / 2) 0 Real.pi) = Real.pi := by
  have hpi := Real.pi_pos
  have hyaw : Real.pi / 2 ∈ Set.Ioc (-Real.pi) Real.pi := ⟨by linarith, by linarith⟩
  have hpitch : (0 : ℝ) ∈ Set.Ioo (-(Real.pi / 2)) (Real.pi / 2) := ⟨by linarith, by linarith⟩
  have hroll : Real.pi ∈ Set.Ioc (-Real.pi) Real.pi := ⟨by linarith, le_rfl⟩
  have hall := ypr_roundTrip hyaw hpitch hroll
  exact ⟨hall.2.1, hall.2.2.2.1⟩

end RoundTrip

end Rbbl

end Visr
