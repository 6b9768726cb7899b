import Mathlib.Algebra.Field.Basic
import Mathlib.Algebra.Order.Field.Basic
import Mathlib.Tactic.FieldSimp
import Mathlib.Tactic.LinearCombination
import Mathlib.Tactic.Ring

/-!
# Vectors of dimension three

Coordinates with respect to three linearly independent vectors.

## Main definitions

* `Vector3D` — a vector, with `Vector3D.dot`, `Vector3D.cross` and `Vector3D.det`.
* `Vector3D.combine` — the linear combination of three vectors.
* `Vector3D.coordinates` — the coordinates, from Cramer's rule.

## Main results

* `Vector3D.combine_coordinates`, `Vector3D.coordinates_combine` — the coordinates exist and are
  unique.
-/

/-- A vector with three components. -/
@[ext] structure Vector3D (K : Type*) where
  x : K
  y : K
  z : K

namespace Vector3D

variable {K : Type*} [Field K]

def dot (a b : Vector3D K) : K := a.x * b.x + a.y * b.y + a.z * b.z

def cross (a b : Vector3D K) : Vector3D K :=
  ⟨a.y * b.z - a.z * b.y, a.z * b.x - a.x * b.z, a.x * b.y - a.y * b.x⟩

def det (a b c : Vector3D K) : K := a.dot (b.cross c)

def sub (a b : Vector3D K) : Vector3D K := ⟨a.x - b.x, a.y - b.y, a.z - b.z⟩

/-- The vector divided by a number. -/
def scale (a : Vector3D K) (l : K) : Vector3D K := ⟨a.x / l, a.y / l, a.z / l⟩

/-- The vertical unit vector. -/
def up : Vector3D K := ⟨0, 0, 1⟩

/-- The linear combination with the coefficients in `g`. -/
def combine (a b c g : Vector3D K) : Vector3D K :=
  ⟨g.x * a.x + g.y * b.x + g.z * c.x, g.x * a.y + g.y * b.y + g.z * c.y,
    g.x * a.z + g.y * b.z + g.z * c.z⟩

/-- The coordinates of a vector with respect to three others. -/
def coordinates (a b c s : Vector3D K) : Vector3D K :=
  ⟨s.dot (b.cross c) / det a b c, s.dot (c.cross a) / det a b c, s.dot (a.cross b) / det a b c⟩

theorem dot_cross_self (p a : Vector3D K) : p.dot (a.cross a) = 0 := by
  unfold dot cross
  ring

theorem dot_cross_swap (p a b : Vector3D K) : p.dot (a.cross b) = -p.dot (b.cross a) := by
  unfold dot cross
  ring

variable {a b c : Vector3D K}

/-- **The coordinates exist**, if the vectors are independent. -/
theorem combine_coordinates (h : det a b c ≠ 0) (s : Vector3D K) :
    combine a b c (coordinates a b c s) = s := by
  have hdet : det a b c * (det a b c)⁻¹ = 1 := mul_inv_cancel₀ h
  unfold combine coordinates
  ext
  · simp only [div_eq_mul_inv]
    unfold det dot cross at *
    linear_combination s.x * hdet
  · simp only [div_eq_mul_inv]
    unfold det dot cross at *
    linear_combination s.y * hdet
  · simp only [div_eq_mul_inv]
    unfold det dot cross at *
    linear_combination s.z * hdet

/-- **The coordinates are unique.** -/
theorem coordinates_combine (h : det a b c ≠ 0) (g : Vector3D K) :
    coordinates a b c (combine a b c g) = g := by
  unfold coordinates combine
  ext
  · dsimp only
    rw [div_eq_iff h]
    unfold det dot cross
    ring
  · dsimp only
    rw [div_eq_iff h]
    unfold det dot cross
    ring
  · dsimp only
    rw [div_eq_iff h]
    unfold det dot cross
    ring

theorem eq_coordinates (h : det a b c ≠ 0) {g s : Vector3D K} (hg : combine a b c g = s) :
    g = coordinates a b c s := by
  rw [← hg, coordinates_combine h]

/-- The cofactors of a vector are its coordinates times the determinant. -/
theorem combine_cofactors (a b c s : Vector3D K) :
    combine a b c ⟨s.dot (b.cross c), s.dot (c.cross a), s.dot (a.cross b)⟩ =
      ⟨det a b c * s.x, det a b c * s.y, det a b c * s.z⟩ := by
  unfold combine det dot cross
  ext
  · ring
  · ring
  · ring

section Ordered

variable [LinearOrder K]

/-- The number of negative components. -/
def negatives (g : Vector3D K) : ℕ :=
  (if g.x < 0 then 1 else 0) + (if g.y < 0 then 1 else 0) + (if g.z < 0 then 1 else 0)

/-- The smallest component. -/
def least (g : Vector3D K) : K := min (min g.x g.y) g.z

end Ordered

end Vector3D
