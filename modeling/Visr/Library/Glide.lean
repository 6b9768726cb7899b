import Mathlib.Algebra.Order.Field.Basic
import Mathlib.Algebra.Order.Ring.Abs
import Mathlib.Tactic.FieldSimp
import Mathlib.Tactic.Linarith
import Mathlib.Tactic.Ring

/-!
# Glides

A glide leads a number to a target within a given number of samples, on a straight line.
It may be given a new target at any time, and then starts from the value in force.

## Main definitions

* `between a b t` — the point `t` of the way from `a` to `b`.
* `Glide` — start, target and the number of samples since the start.
* `Glide.value` — the value in force at a sample.
* `Glide.advance`, `Glide.retarget` — time passes, and a new target.

## Main results

* `Glide.step_le` — a glide never jumps.
* `Glide.value_block` — a block of a glide is the straight line between its ends.
-/

section Between

variable {K : Type*} [Field K]

/-- The point `t` of the way from `a` to `b`. -/
def between (a b t : K) : K := (1 - t) * a + t * b

@[simp] theorem between_zero (a b : K) : between a b 0 = a := by
  unfold between
  ring

@[simp] theorem between_one (a b : K) : between a b 1 = b := by
  unfold between
  ring

@[simp] theorem between_self (a t : K) : between a a t = a := by
  unfold between
  ring

/-- A part of a line segment is a line segment. -/
theorem between_between (a b s t u : K) :
    between (between a b s) (between a b t) u = between a b (between s t u) := by
  unfold between
  ring

theorem between_mul (a b t c : K) : between (a * c) (b * c) t = between a b t * c := by
  unfold between
  ring

/-- What is between two numbers of an interval belongs to it. -/
theorem between_mem [LinearOrder K] [IsStrictOrderedRing K] {a b t lower upper : K}
    (ha : lower ≤ a ∧ a ≤ upper) (hb : lower ≤ b ∧ b ≤ upper) (ht : 0 ≤ t ∧ t ≤ 1) :
    lower ≤ between a b t ∧ between a b t ≤ upper := by
  obtain ⟨ht0, ht1⟩ := ht
  have hrest : 0 ≤ 1 - t := sub_nonneg.mpr ht1
  have hla := mul_le_mul_of_nonneg_left ha.1 hrest
  have hlb := mul_le_mul_of_nonneg_left hb.1 ht0
  have hua := mul_le_mul_of_nonneg_left ha.2 hrest
  have hub := mul_le_mul_of_nonneg_left hb.2 ht0
  unfold between
  constructor
  · linarith
  · linarith

end Between

/-- A number on its way from `start` to `target`; `elapsed` samples have passed. -/
structure Glide (K : Type*) where
  start : K
  target : K
  elapsed : ℕ

namespace Glide

variable {K : Type*}

/-- A glide whose ends are the same. -/
def still (value : K) : Glide K := ⟨value, value, 0⟩

def advance (n : ℕ) (g : Glide K) : Glide K := { g with elapsed := g.elapsed + n }

variable [Field K]

/-- The value `k` samples after the start of a glide that takes `steps` samples: the point
`k / steps` of the way, and the target in the end. -/
def value (steps : ℕ) (g : Glide K) (k : ℕ) : K :=
  if k < steps then between g.start g.target ((k : K) / steps) else g.target

/-- The value in force after the latest sample. -/
def present (steps : ℕ) (g : Glide K) : K := g.value steps g.elapsed

/-- A new target, towards which the glide starts from the value in force. -/
def retarget (steps : ℕ) (target : K) (g : Glide K) : Glide K := ⟨g.present steps, target, 0⟩

theorem value_of_le {steps k : ℕ} (h : steps ≤ k) (g : Glide K) : g.value steps k = g.target :=
  if_neg (Nat.not_lt.mpr h)

theorem value_of_lt {steps k : ℕ} (h : k < steps) (g : Glide K) :
    g.value steps k = between g.start g.target ((k : K) / steps) := if_pos h

variable [CharZero K]

/-- Up to the end of the transition, the end included, the value is on the line. -/
theorem value_line {steps k : ℕ} (hsteps : 0 < steps) (h : k ≤ steps) (g : Glide K) :
    g.value steps k = between g.start g.target ((k : K) / steps) := by
  by_cases hlt : k < steps
  · exact value_of_lt hlt g
  · have heq : k = steps := by omega
    have hne : (steps : K) ≠ 0 := Nat.cast_ne_zero.mpr (by omega)
    rw [value_of_le (by omega) g, heq, div_self hne, between_one]

/-- **Blocks.**  If the transition takes a whole number of blocks, then the values in a block
are on the line between the values at its two ends. -/
theorem value_block {blocks size c i : ℕ} (hsize : 0 < size) (hi : i < size) (g : Glide K) :
    g.value (blocks * size) (c * size + i + 1) =
      between (g.value (blocks * size) (c * size)) (g.value (blocks * size) ((c + 1) * size))
        (((i + 1 : ℕ) : K) / size) := by
  by_cases hc : c < blocks
  · have hsteps : 0 < blocks * size := Nat.mul_pos (by omega) hsize
    have hend : (c + 1) * size ≤ blocks * size := Nat.mul_le_mul_right size hc
    have hnext : (c + 1) * size = c * size + size := by ring
    have hblocks : (blocks : K) ≠ 0 := Nat.cast_ne_zero.mpr (by omega)
    have hsize' : (size : K) ≠ 0 := Nat.cast_ne_zero.mpr (by omega)
    rw [value_line hsteps (by omega), value_line hsteps (by omega), value_line hsteps hend,
      between_between]
    congr 1
    unfold between
    push_cast
    field_simp
    ring
  · have hle : blocks * size ≤ c * size := Nat.mul_le_mul_right size (by omega)
    have hle' : blocks * size ≤ (c + 1) * size := Nat.mul_le_mul_right size (by omega)
    rw [value_of_le (by omega), value_of_le hle, value_of_le hle', between_self]

section Order

variable [LinearOrder K] [IsStrictOrderedRing K]

/-- **No jumps.**  From one sample to the next, a glide moves by no more than its share of
the way. -/
theorem step_le {steps : ℕ} (hsteps : 0 < steps) (g : Glide K) (k : ℕ) :
    |g.value steps (k + 1) - g.value steps k| ≤ |g.target - g.start| / steps := by
  have hpos : (0 : K) < steps := Nat.cast_pos.mpr hsteps
  by_cases hlt : k < steps
  · have hne : (steps : K) ≠ 0 := hpos.ne'
    have hdiff : g.value steps (k + 1) - g.value steps k = (g.target - g.start) / steps := by
      rw [value_line hsteps hlt, value_of_lt hlt]
      unfold between
      push_cast
      field_simp
      ring
    rw [hdiff, abs_div, abs_of_pos hpos]
  · rw [value_of_le (by omega), value_of_le (by omega), sub_self, abs_zero]
    exact div_nonneg (abs_nonneg _) hpos.le

end Order

end Glide
