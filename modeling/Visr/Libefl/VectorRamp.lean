import Mathlib.Algebra.Ring.CharZero
import Mathlib.Data.Rat.Cast.CharZero
import Mathlib.Tactic.FieldSimp
import Mathlib.Tactic.LinearCombination
import Mathlib.Tactic.NormNum
import Visr.Libefl.VectorFunctions
import Visr.Library.Glide

/-!
# Ramps

## Main results

* `vectorRampDefined_eq` — **no division by zero occurs**.
* `vectorRamp_between` — a ramp is a straight line.
* `FollowsDocumentation.straightLine` — the documented values are a straight line.
* `vectorRamp_followsDocumentation_iff` — **which ramps have the documented values**.
-/

namespace Visr

variable {K : Type} [Field K]

/-- A ramp that ends with its last value is a straight line, which starts one sample earlier. -/
theorem vectorRamp_between [CharZero K] (dest : Pointer K) {alignment : ℕ}
    (haligned : checkAlignment dest.address alignment = true) (numElements : ℕ)
    (startVal endVal : K) :
    ∃ ramp, vectorRamp dest numElements startVal endVal false true alignment = .ok ramp ∧
      ∀ idx < numElements,
        ramp idx = between startVal endVal (((idx + 1 : ℕ) : K) / numElements) := by
  unfold vectorRamp
  rw [haligned]
  by_cases hzero : numElements = 0
  · exact ⟨dest.data, by simp [hzero], fun idx hidx => absurd hidx (by omega)⟩
  · by_cases hone : numElements = 1
    · refine ⟨_, by rw [if_neg (by decide), if_neg hzero, if_pos hone], fun idx hidx => ?_⟩
      -- a single sample, which is that of the end
      obtain rfl : idx = 0 := by omega
      rw [hone, if_pos Nat.one_pos, if_neg (by decide), Nat.zero_add, Nat.cast_one, div_one,
        between_one]
    · refine ⟨_, by rw [if_neg (by decide), if_neg hzero, if_neg hone], fun idx hidx => ?_⟩
      rw [if_pos hidx]
      have hne : (numElements : K) ≠ 0 := Nat.cast_ne_zero.mpr hzero
      simp only [Bool.false_eq_true, if_false, if_true, Nat.sub_zero, Nat.add_sub_cancel]
      rw [Nat.add_comm 1 idx]
      unfold between
      field_simp
      ring

/-! ### Divisions -/

/-- A division, which has no result for the divisor zero. -/
def divide [DecidableEq K] (a b : K) : Option K := if b = 0 then none else some (a / b)

theorem divide_of_ne [DecidableEq K] (a : K) {b : K} (hb : b ≠ 0) :
    divide a b = some (a / b) :=
  if_neg hb

/-- A ramp between two values, with no result if it needs a division by zero. -/
def vectorRampDefined [DecidableEq K] (dest : Pointer K) (numElements : ℕ) (startVal endVal : K)
    (startInclusive endInclusive : Bool) (alignment : ℕ) : Except ErrorCode (Option (ℕ → K)) :=
  if !checkAlignment dest.address alignment then .error .alignmentError
  else if numElements = 0 then .ok (some dest.data)
  else if numElements = 1 then
    -- the value in the middle, stored before if both flags are equal, is overwritten
    .ok (some fun idx =>
      if idx < 1 then (if startInclusive then startVal else endVal) else dest.data idx)
  else
    let numSteps :=
      numElements + 1 - (if startInclusive then 1 else 0) - (if endInclusive then 1 else 0)
    let calcIdx := if startInclusive then 0 else 1
    .ok ((divide (endVal - startVal) (numSteps : K)).map fun step => fun idx =>
      if idx < numElements then startVal + ((calcIdx + idx : ℕ) : K) * step else dest.data idx)

/-- **No division by zero occurs.** -/
theorem vectorRampDefined_eq [DecidableEq K] [CharZero K] (dest : Pointer K) (numElements : ℕ)
    (startVal endVal : K) (startInclusive endInclusive : Bool) (alignment : ℕ) :
    vectorRampDefined dest numElements startVal endVal startInclusive endInclusive alignment =
      (vectorRamp dest numElements startVal endVal startInclusive endInclusive alignment).map
        some := by
  unfold vectorRampDefined vectorRamp
  split
  · rfl
  · by_cases hzero : numElements = 0
    · simp [hzero, Except.map]
    · by_cases hone : numElements = 1
      · simp [hone, Except.map]
      · -- there is one step at least
        have hsteps : (((numElements + 1 - (if startInclusive then 1 else 0) -
            (if endInclusive then 1 else 0) : ℕ)) : K) ≠ 0 := by
          apply Nat.cast_ne_zero.mpr
          cases startInclusive <;> cases endInclusive <;> simp <;> omega
        rw [if_neg hzero, if_neg hone, if_neg hzero, if_neg hone]
        simp only [divide]
        rw [if_neg hsteps]
        rfl

/-! ### The documented values -/

/-- The number of steps between the two ends of a ramp. -/
def rampSteps (numElements : ℕ) (startInclusive endInclusive : Bool) : ℕ :=
  numElements + 1 - (if startInclusive then 1 else 0) - (if endInclusive then 1 else 0)

section Values

variable {numElements : ℕ} {startVal endVal : K} {startInclusive endInclusive : Bool} {ramp : ℕ → K}

/-- A ramp in steps of equal size.  A single value is the end that is included, or lies in the
middle. -/
structure FollowsDocumentation (numElements : ℕ) (startVal endVal : K)
    (startInclusive endInclusive : Bool) (ramp : ℕ → K) : Prop where
  progression : 0 < rampSteps numElements startInclusive endInclusive →
    ¬(numElements = 1 ∧ startInclusive ≠ endInclusive) → ∀ k < numElements,
      ramp k = startVal + ((k + if startInclusive then 0 else 1 : ℕ) : K) *
        ((endVal - startVal) / rampSteps numElements startInclusive endInclusive)
  single : numElements = 1 → ramp 0 =
    if startInclusive = endInclusive then (startVal + endVal) / 2
    else if startInclusive then startVal else endVal

/-- Values in steps of equal size, whose first and last ones are either the ends or one step away
from them. -/
structure StraightLine (numElements : ℕ) (startVal endVal : K)
    (startInclusive endInclusive : Bool) (ramp : ℕ → K) (step : K) : Prop where
  first : ramp 0 - (if startInclusive then 0 else step) = startVal
  last : ramp (numElements - 1) + (if endInclusive then 0 else step) = endVal
  neighbours : ∀ k, k + 1 < numElements → ramp (k + 1) - ramp k = step

theorem FollowsDocumentation.straightLine [CharZero K]
    (h : FollowsDocumentation numElements startVal endVal startInclusive endInclusive ramp)
    (hne : 1 ≤ numElements) (hsteps : 0 < rampSteps numElements startInclusive endInclusive)
    (hsingle : ¬(numElements = 1 ∧ startInclusive ≠ endInclusive)) :
    StraightLine numElements startVal endVal startInclusive endInclusive ramp
      ((endVal - startVal) / rampSteps numElements startInclusive endInclusive) := by
  have hvalue := h.progression hsteps hsingle
  have hcast : (rampSteps numElements startInclusive endInclusive : K) ≠ 0 :=
    Nat.cast_ne_zero.mpr (by omega)
  refine ⟨?_, ?_, ?_⟩
  · rw [hvalue 0 (by omega)]
    cases startInclusive <;> simp
  · rw [hvalue _ (by omega)]
    -- the index of the end is the number of steps
    have hend : ((numElements - 1 + if startInclusive then 0 else 1 : ℕ) : K) +
        (if endInclusive then 0 else 1) = rampSteps numElements startInclusive endInclusive := by
      have hnat : (numElements - 1 + if startInclusive then 0 else 1) +
          (if endInclusive then 0 else 1) = rampSteps numElements startInclusive endInclusive := by
        unfold rampSteps at hsteps ⊢
        cases startInclusive <;> cases endInclusive <;> simp at hsteps ⊢ <;> omega
      rw [← hnat, Nat.cast_add]
      cases endInclusive <;> simp
    generalize ((numElements - 1 + if startInclusive then 0 else 1 : ℕ) : K) = i at hend ⊢
    generalize (rampSteps numElements startInclusive endInclusive : K) = d at hend hcast ⊢
    have hi : i = d - (if endInclusive then 0 else 1) := by rw [← hend]; ring
    rw [hi]
    cases endInclusive
    · simp only [Bool.false_eq_true, if_false]
      field_simp
      ring
    · simp only [if_true]
      field_simp
      ring
  · intro k hk
    rw [hvalue (k + 1) hk, hvalue k (by omega)]
    push_cast
    ring

/-- **A ramp has the documented values** unless it is a single one between two different ends,
both or none of which are included. -/
theorem vectorRamp_followsDocumentation_iff [DecidableEq K] [CharZero K] (dest : Pointer K)
    {alignment : ℕ} (haligned : checkAlignment dest.address alignment = true) (numElements : ℕ)
    (hne : 1 ≤ numElements) (startVal endVal : K) (startInclusive endInclusive : Bool) :
    (∃ ramp,
      vectorRampDefined dest numElements startVal endVal startInclusive endInclusive alignment =
        .ok (some ramp) ∧
      FollowsDocumentation numElements startVal endVal startInclusive endInclusive ramp ∧
      (0 < rampSteps numElements startInclusive endInclusive →
        ¬(numElements = 1 ∧ startInclusive ≠ endInclusive) →
        StraightLine numElements startVal endVal startInclusive endInclusive ramp
          ((endVal - startVal) / rampSteps numElements startInclusive endInclusive)) ∧
      ∀ k, numElements ≤ k → ramp k = dest.data k) ↔
      ¬(numElements = 1 ∧ startInclusive = endInclusive ∧ startVal ≠ endVal) := by
  have htwo : (2 : K) ≠ 0 := two_ne_zero
  rw [vectorRampDefined_eq]
  unfold vectorRamp
  rw [haligned, if_neg (by decide), if_neg (by omega)]
  by_cases hone : numElements = 1
  · -- a single value
    subst hone
    rw [if_pos rfl]
    constructor
    · rintro ⟨ramp, hramp, hdoc, -, -⟩ ⟨-, hflags, hdiff⟩
      cases hramp
      -- the documentation asks for the mean of both ends, the code writes one of them
      have hmiddle := hdoc.single rfl
      rw [if_pos hflags, if_pos Nat.one_pos, eq_div_iff htwo] at hmiddle
      apply hdiff
      cases startInclusive
      · simp only [Bool.false_eq_true, if_false] at hmiddle
        linear_combination -hmiddle
      · simp only [if_true] at hmiddle
        linear_combination hmiddle
    · intro h
      have hdoc : FollowsDocumentation 1 startVal endVal startInclusive endInclusive fun idx =>
          if idx < 1 then (if startInclusive then startVal else endVal) else dest.data idx := by
        by_cases hflags : startInclusive = endInclusive
        · have heq : startVal = endVal := by
            by_contra hdiff
            exact h ⟨rfl, hflags, hdiff⟩
          refine ⟨fun _ _ k hk => ?_, fun _ => ?_⟩
          · rw [if_pos hk, heq, ite_self, sub_self, zero_div, mul_zero, add_zero]
          · rw [if_pos Nat.one_pos, if_pos hflags, heq, ite_self]
            field_simp
            ring
        · refine ⟨fun _ hsingle => absurd ⟨rfl, hflags⟩ hsingle, fun _ => ?_⟩
          rw [if_pos Nat.one_pos, if_neg hflags]
      exact ⟨_, rfl, hdoc, hdoc.straightLine le_rfl, fun k hk => if_neg (by omega)⟩
  · rw [if_neg hone]
    refine iff_of_true ?_ fun h => hone h.1
    have hdoc : FollowsDocumentation numElements startVal endVal startInclusive endInclusive
        fun idx => if idx < numElements then
          startVal + (((if startInclusive then 0 else 1) + idx : ℕ) : K) *
            ((endVal - startVal) / rampSteps numElements startInclusive endInclusive)
          else dest.data idx := by
      refine ⟨fun _ _ k hk => ?_, fun h => absurd h hone⟩
      rw [if_pos hk, Nat.add_comm]
    exact ⟨_, rfl, hdoc, hdoc.straightLine hne, fun k hk => if_neg (by omega)⟩

/-- A ramp from zero to one with a single value. -/
theorem vectorRamp_followsDocumentation_three :
    ∃ ramp, vectorRampDefined ⟨0, fun _ => (0 : ℚ)⟩ 3 0 1 true false 0 = .ok (some ramp) ∧
      FollowsDocumentation 3 0 1 true false ramp :=
  have haligned : checkAlignment 0 0 = true := rfl
  have h := (vectorRamp_followsDocumentation_iff ⟨0, fun _ => (0 : ℚ)⟩ haligned 3
    (by decide) 0 1 true false).mpr (by decide)
  ⟨h.choose, h.choose_spec.1, h.choose_spec.2.1⟩

/-- Between zero and one there is a value in the middle. -/
theorem vectorRamp_single :
    ¬∃ ramp, vectorRampDefined ⟨0, fun _ => (0 : ℚ)⟩ 1 0 1 true true 0 = .ok (some ramp) ∧
      FollowsDocumentation 1 0 1 true true ramp := by
  rintro ⟨ramp, hramp, hdoc⟩
  cases hramp
  have hmiddle := hdoc.single rfl
  norm_num at hmiddle

end Values

end Visr
