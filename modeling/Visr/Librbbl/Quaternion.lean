import Mathlib.Algebra.Quaternion
import Mathlib.Analysis.Quaternion
import Mathlib.Analysis.SpecialFunctions.Complex.Arg
import Mathlib.Analysis.SpecialFunctions.Trigonometric.Inverse
import Visr.Libefl.VectorRamp
import Visr.Librbbl.CoreConvolverUniform
import Visr.Library.Vector3D

/-!
# Quaternions and positions

Rotations in space as quaternions, their other representations, and the positions that they are
applied to.

## Main results

* `Rbbl.quaternionNorm_eq`, `Rbbl.inner_eq_dot` — the quaternions as a Euclidean space.
* `Rbbl.normalise_eq`, `Rbbl.normalisePosition_eq` — what is normalised.
-/

namespace Visr

/-- Functions of the mathematics library. -/
structure AngleFunctions (K : Type) where
  sqrt : K → K
  sin : K → K
  cos : K → K
  asin : K → K
  acos : K → K
  atan2 : K → K → K
  pi : K

/-- The functions on the real numbers. -/
noncomputable def AngleFunctions.real : AngleFunctions ℝ where
  sqrt := Real.sqrt
  sin := Real.sin
  cos := Real.cos
  asin := Real.arcsin
  acos := Real.arccos
  atan2 y x := Complex.arg ⟨x, y⟩
  pi := Real.pi

/-- The instantiations of the templates. -/
inductive CoordinateType
  | float
  | double
  deriving DecidableEq, Repr

/-- `std::numeric_limits::epsilon()`. -/
def CoordinateType.epsilon (K : Type) [Field K] : CoordinateType → K
  | .float => Visr.epsilon K
  | .double => 1 / ((2 ^ 52 : ℕ) : K)

namespace Rbbl

/-- A division, which has no result for the divisor zero. -/
def divided {K : Type} [Field K] [DecidableEq K] (a b : K) : Except Fault K :=
  match divide a b with
  | none => .error .divisionByZero
  | some q => .ok q

section Definitions

variable {K : Type} [Field K] [LinearOrder K] (math : AngleFunctions K) (type : CoordinateType)

/-! ### Positions -/

abbrev Position3D (K : Type) := Vector3D K

def normSquare (p : Position3D K) : K := p.x * p.x + p.y * p.y + p.z * p.z

def norm (p : Position3D K) : K := math.sqrt (normSquare p)

def addPosition (lhs rhs : Position3D K) : Position3D K :=
  ⟨lhs.x + rhs.x, lhs.y + rhs.y, lhs.z + rhs.z⟩

def scalePosition (scale : K) (val : Position3D K) : Position3D K :=
  ⟨scale * val.x, scale * val.y, scale * val.z⟩

/-- `normalise()` for positions. -/
def normalisePosition (val : Position3D K) (silentDivideByZero : Bool) :
    Except Fault (Position3D K) :=
  let n2 := norm math val
  if !silentDivideByZero ∧ n2 < type.epsilon K then
    .error (.thrown (.runtimeError "Position3D::normalise(): Vector too close to zero."))
  else do
    let scale ← divided 1 n2
    .ok (scalePosition scale val)

def angleNormalised (lhs rhs : Position3D K) : K := math.acos (max (-1) (min 1 (lhs.dot rhs)))

/-- `interpolateSpherical()` for positions. -/
def interpolateSphericalPosition (pos0 pos1 : Position3D K) (tInterp : K) :
    Except Fault (Position3D K) := do
  let pos0Normed ← normalisePosition math type pos0 false
  let pos1Normed ← normalisePosition math type pos1 false
  let omega := angleNormalised math pos0Normed pos1Normed
  if omega < type.epsilon K then
    .ok (addPosition (scalePosition (1 - tInterp) pos0) (scalePosition tInterp pos1))
  else do
    let sf ← divided 1 (math.sin omega)
    let c0 := sf * math.sin ((1 - tInterp) * omega)
    let c1 := sf * math.sin (tInterp * omega)
    let resDir := addPosition (scalePosition c0 pos0Normed) (scalePosition c1 pos1Normed)
    let resRadius := (1 - tInterp) * norm math pos0 + tInterp * norm math pos1
    .ok (scalePosition resRadius resDir)

/-! ### Quaternions -/

/-- `Quaternion::norm()`. -/
def quaternionNorm (q : Quaternion K) : K :=
  math.sqrt (q.re * q.re + q.imI * q.imI + q.imJ * q.imJ + q.imK * q.imK)

/-- `dot()` for quaternions. -/
def quaternionDot (op1 op2 : Quaternion K) : K :=
  op1.re * op2.re + op1.imI * op2.imI + op1.imJ * op2.imJ + op1.imK * op2.imK

def normalise (val : Quaternion K) (adjustSign silentDivideByZero : Bool) :
    Except Fault (Quaternion K) :=
  let l2 := quaternionNorm math val
  if !silentDivideByZero ∧ l2 < type.epsilon K then
    .error (.thrown (.runtimeError "Quaternion::normalise(): Quaternion to close to zero."))
  else do
    let scale ← divided (if adjustSign ∧ val.re < 0 then -1 else 1) l2
    .ok (scale • val)

/-- The weights are divided by the sine of the angle, whatever that is. -/
def interpolateSpherical (pos0 pos1 : Quaternion K) (tInterp : K) : Except Fault (Quaternion K) := do
  let normed0 ← normalise math type pos0 false false
  let normed1 ← normalise math type pos1 false false
  let omega := math.acos (min 1 (max (-1) (quaternionDot normed0 normed1)))
  let sinOmega := math.sin omega
  let sf1 ← divided (math.sin ((1 - tInterp) * omega)) sinOmega
  let sf2 ← divided (math.sin (tInterp * omega)) sinOmega
  .ok (sf1 • pos0 + sf2 • pos1)

/-! ### Angles -/

def fromYPR (yaw pitch roll : K) : Quaternion K :=
  let half : K := 1 / (1 + 1)
  let cy := math.cos (yaw * half)
  let sy := math.sin (yaw * half)
  let cp := math.cos (pitch * half)
  let sp := math.sin (pitch * half)
  let cr := math.cos (roll * half)
  let sr := math.sin (roll * half)
  ⟨cy * cp * cr + sy * sp * sr, cy * cp * sr - sy * sp * cr, sy * cp * sr + cy * sp * cr,
    sy * cp * cr - cy * sp * sr⟩

def yaw (q : Quaternion K) : K :=
  math.atan2 ((1 + 1) * (q.re * q.imK + q.imI * q.imJ))
    (1 - (1 + 1) * (q.imJ * q.imJ + q.imK * q.imK))

/-- `std::copysign()`. -/
def copysign (x y : K) : K := if y < 0 then -|x| else |x|

def pitch (q : Quaternion K) : K :=
  let arg := (1 + 1) * (q.re * q.imJ - q.imK * q.imI)
  if 1 ≤ |arg| then copysign (math.pi / (1 + 1)) arg else math.asin arg

def roll (q : Quaternion K) : K :=
  math.atan2 ((1 + 1) * (q.re * q.imI + q.imJ * q.imK))
    (1 - (1 + 1) * (q.imI * q.imI + q.imJ * q.imJ))

/-! ### Axes -/

/-- The length of the part that is a position. -/
def vectorNorm (q : Quaternion K) : K :=
  math.sqrt (q.imI * q.imI + q.imJ * q.imJ + q.imK * q.imK)

/-- The axis of a rotation, or some unit vector if there is no rotation. -/
def rotationVector (q : Quaternion K) : Position3D K :=
  let norm := vectorNorm math q
  if norm ≤ type.epsilon K then ⟨1, 0, 0⟩
  else
    let scale := 1 / norm
    ⟨scale * q.imI, scale * q.imJ, scale * q.imK⟩

def rotationAngle (q : Quaternion K) : K := (1 + 1) * math.atan2 (vectorNorm math q) q.re

def setRotationVector (rotVec : Position3D K) (angle : K) : Except Fault (Quaternion K) := do
  let normVec ← normalisePosition math type rotVec false
  let sinPhi2 := math.sin (1 / (1 + 1) * angle)
  .ok ⟨math.cos (1 / (1 + 1) * angle), sinPhi2 * normVec.x, sinPhi2 * normVec.y,
    sinPhi2 * normVec.z⟩

end Definitions

/-! ### Rotations -/

section Rotations

variable {K : Type} [CommRing K]

/-- A position as a quaternion. -/
def asQuat (p : Position3D K) : Quaternion K := ⟨0, p.x, p.y, p.z⟩

@[simp] theorem re_asQuat (p : Position3D K) : (asQuat p).re = 0 := rfl

@[simp] theorem imI_asQuat (p : Position3D K) : (asQuat p).imI = p.x := rfl

@[simp] theorem imJ_asQuat (p : Position3D K) : (asQuat p).imJ = p.y := rfl

@[simp] theorem imK_asQuat (p : Position3D K) : (asQuat p).imK = p.z := rfl

def rotate (pos : Position3D K) (rot : Quaternion K) : Position3D K :=
  let resQuat := rot * asQuat pos * star rot
  ⟨resQuat.imI, resQuat.imJ, resQuat.imK⟩

def transform (pos : Position3D K) (rot : Quaternion K) (shift : Position3D K) : Position3D K :=
  let rotated := rotate pos rot
  ⟨rotated.x + shift.x, rotated.y + shift.y, rotated.z + shift.z⟩

end Rotations

/-! ### The Euclidean space of the quaternions -/

section Euclidean

open scoped RealInnerProductSpace

open AngleFunctions (real)

theorem divided_of_ne {K : Type} [Field K] [DecidableEq K] (a : K) {b : K} (hb : b ≠ 0) :
    divided a b = .ok (a / b) := by
  unfold divided
  rw [divide_of_ne a hb]

theorem divided_zero {K : Type} [Field K] [DecidableEq K] (a : K) :
    divided a 0 = .error .divisionByZero := by
  unfold divided divide
  rw [if_pos rfl]

theorem epsilon_pos {K : Type} [Field K] [LinearOrder K] [IsStrictOrderedRing K] :
    ∀ type : CoordinateType, 0 < type.epsilon K
  | .float => Visr.epsilon_pos
  | .double => by
    unfold CoordinateType.epsilon
    positivity

theorem epsilon_lt_one : ∀ type : CoordinateType, type.epsilon ℝ < 1
  | .float => by
    unfold CoordinateType.epsilon Visr.epsilon
    norm_num
  | .double => by
    unfold CoordinateType.epsilon
    norm_num

theorem quaternionNorm_eq (q : Quaternion ℝ) : quaternionNorm real q = ‖q‖ := by
  show Real.sqrt _ = _
  rw [← Real.sqrt_mul_self (norm_nonneg q), ← Quaternion.normSq_eq_norm_mul_self,
    Quaternion.normSq_def']
  congr 1
  ring

theorem inner_eq_dot (a b : Quaternion ℝ) : ⟪a, b⟫ = quaternionDot a b := by
  rw [Quaternion.inner_def]
  unfold quaternionDot
  simp

@[simp] theorem asQuat_add (a b : Position3D ℝ) :
    asQuat (addPosition a b) = asQuat a + asQuat b := by
  ext <;> simp [addPosition]

@[simp] theorem asQuat_scale (c : ℝ) (a : Position3D ℝ) :
    asQuat (scalePosition c a) = c • asQuat a := by
  ext <;> simp [scalePosition]

theorem norm_asQuat (p : Position3D ℝ) : ‖asQuat p‖ = norm real p := by
  rw [← quaternionNorm_eq]
  unfold quaternionNorm norm normSquare asQuat
  simp only [mul_zero, zero_add]

theorem inner_asQuat (a b : Position3D ℝ) : ⟪asQuat a, asQuat b⟫ = a.dot b := by
  rw [inner_eq_dot]
  unfold quaternionDot asQuat Vector3D.dot
  simp only [mul_zero, zero_add]

variable {type : CoordinateType}

/-- **Quaternions that are long enough are normalised.** -/
theorem normalise_eq {q : Quaternion ℝ} (h : type.epsilon ℝ ≤ ‖q‖) :
    normalise real type q false false = .ok (‖q‖⁻¹ • q) := by
  have hpos : 0 < ‖q‖ := (epsilon_pos type).trans_le h
  unfold normalise
  dsimp only
  rw [quaternionNorm_eq, if_neg (not_and.mpr fun _ => not_lt.mpr h), divided_of_ne _ hpos.ne',
    if_neg (by simp), one_div]
  rfl

/-- **Vectors that are long enough are normalised.** -/
theorem normalisePosition_eq {p : Position3D ℝ} (h : type.epsilon ℝ ≤ ‖asQuat p‖) :
    normalisePosition real type p false = .ok (scalePosition ‖asQuat p‖⁻¹ p) := by
  have hpos : 0 < ‖asQuat p‖ := (epsilon_pos type).trans_le h
  unfold normalisePosition
  dsimp only
  rw [← norm_asQuat, if_neg (not_and.mpr fun _ => not_lt.mpr h), divided_of_ne _ hpos.ne', one_div]
  rfl

theorem normalisePosition_error {p : Position3D ℝ} (h : ‖asQuat p‖ < type.epsilon ℝ) :
    normalisePosition real type p false =
      .error (.thrown (.runtimeError "Position3D::normalise(): Vector too close to zero.")) := by
  unfold normalisePosition
  dsimp only
  rw [← norm_asQuat, if_pos ⟨rfl, h⟩]

end Euclidean

end Rbbl

end Visr
