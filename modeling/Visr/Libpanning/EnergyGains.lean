import Mathlib.Algebra.BigOperators.Field
import Mathlib.Algebra.BigOperators.Fin
import Mathlib.Analysis.Real.Sqrt
import Mathlib.Analysis.SpecialFunctions.Trigonometric.Basic
import Mathlib.Tactic.FieldSimp
import Mathlib.Tactic.LinearCombination
import Mathlib.Tactic.Positivity
import Visr.Libpanning.CAP
import Visr.Library.LeastNorm

/-!
# Gains of minimal energy

For three or more loudspeakers, the gains of compensated amplitude panning have the least energy of
all gains that give the image the right direction and level.

## Main results

* `CAP.energyGains_eq` — the gains are those before the limit, limited.
* `CAP.calcGains_leastEnergy` — **the gains before the limit solve the equations of the panning with
  the least energy**.
-/

namespace Visr

open Vector3D

variable {K : Type} [Field K] [LinearOrder K]

section Exact

variable [IsStrictOrderedRing K] {math : CMath K} (hmath : math.Exact)

include hmath

theorem CMath.Exact.sqrt_eq_zero_iff {x : K} (hx : 0 ≤ x) : math.sqrt x = 0 ↔ x = 0 := by
  rw [← mul_self_eq_zero, hmath.sqrt_mul_self x hx]

theorem XYZ.getLength_nonneg (v : Vector3D K) : 0 ≤ getLength math v :=
  hmath.sqrt_nonneg _ (add_nonneg (add_nonneg (mul_self_nonneg v.x) (mul_self_nonneg v.y))
    (mul_self_nonneg v.z))

/-- Only the zero vector has no length. -/
theorem XYZ.getLength_eq_zero_iff (v : Vector3D K) : getLength math v = 0 ↔ v = ⟨0, 0, 0⟩ := by
  have hx : 0 ≤ v.x * v.x := mul_self_nonneg v.x
  have hy : 0 ≤ v.y * v.y := mul_self_nonneg v.y
  have hz : 0 ≤ v.z * v.z := mul_self_nonneg v.z
  unfold getLength
  rw [hmath.sqrt_eq_zero_iff (add_nonneg (add_nonneg hx hy) hz),
    add_eq_zero_iff_of_nonneg (add_nonneg hx hy) hz, add_eq_zero_iff_of_nonneg hx hy,
    mul_self_eq_zero, mul_self_eq_zero, mul_self_eq_zero]
  constructor
  · rintro ⟨⟨hx0, hy0⟩, hz0⟩
    exact Vector3D.ext hx0 hy0 hz0
  · rintro rfl
    exact ⟨⟨rfl, rfl⟩, rfl⟩

end Exact

namespace CAP

section Definitions

variable (math : CMath K) (s : CAP K) (n : ℕ) (source : XYZ K)

/-- The difference between the directions of a loudspeaker and of the image, along the axis through
the ears. -/
def interauralDifference (i : ℕ) : K :=
  s.listenerAuralAxis.dot
    ((s.speakerDirection math i).sub (XYZ.normalise math (s.imagePosition source)))

/-- The sum of the differences. -/
def differenceSum : K := ∑ i ∈ Finset.range n, s.interauralDifference math source i

/-- The sum of their squares. -/
def squareSum : K := ∑ i ∈ Finset.range n,
  s.interauralDifference math source i * s.interauralDifference math source i

/-- The common denominator of the gains. -/
def gainDenominator : K :=
  (s.squareSum math n source * n - s.differenceSum math n source * s.differenceSum math n source) *
    (XYZ.getLength math (s.imagePosition source) + 1 / (100 : ℕ)) / XYZ.getLength math source.vector

/-- The gains before they are limited. -/
def unlimitedGains (i : ℕ) : K :=
  (-s.differenceSum math n source * s.interauralDifference math source i +
    s.squareSum math n source) / s.gainDenominator math n source

/-- The largest gain, or zero. -/
def largestGain (n : ℕ) (g : ℕ → K) : K :=
  (List.range n).foldl (fun gMax i => if g i > gMax then g i else gMax) 0

/-- All gains of a source are scaled if the largest one exceeds the limit. -/
def limitRow (g : ℕ → K) (i : ℕ) : K :=
  if largestGain n g > s.maxGain then g i * (s.maxGain / largestGain n g) else g i

/-- **The gains are limited** after they have been calculated. -/
theorem energyGains_eq (i : ℕ) :
    s.energyGains math n source i = s.limitRow n (s.unlimitedGains math n source) i := by
  unfold energyGains
  dsimp only
  rw [foldl_add_eq_sum, foldl_add_eq_sum]
  rfl

end Definitions

section Energy

variable [IsStrictOrderedRing K] {math : CMath K} (hmath : math.Exact) (s : CAP K) {n : ℕ}
  {source : XYZ K}

omit [IsStrictOrderedRing K] in
/-- The differences are not all the same. -/
theorem nonempty_of_different (hdifferent : ∃ i < n, ∃ k < n,
    s.interauralDifference math source i ≠ s.interauralDifference math source k) :
    (Finset.range n).Nonempty := by
  obtain ⟨i, hi, -⟩ := hdifferent
  exact ⟨i, Finset.mem_range.mpr hi⟩

/-- The Cauchy–Schwarz inequality for the differences. -/
theorem squareSum_mul_sub_pos (hdifferent : ∃ i < n, ∃ k < n,
    s.interauralDifference math source i ≠ s.interauralDifference math source k) :
    0 < s.squareSum math n source * n -
      s.differenceSum math n source * s.differenceSum math n source := by
  have hne := s.nonempty_of_different hdifferent
  have hnonneg := card_mul_sum_sub_nonneg (s.interauralDifference math source) hne
  have hzero := card_mul_sum_sub_eq_zero_iff (s.interauralDifference math source) hne
  rw [Finset.card_range, mul_comm] at hnonneg hzero
  refine lt_of_le_of_ne hnonneg fun h => ?_
  obtain ⟨i, hi, k, hk, hik⟩ := hdifferent
  exact hik (hzero.mp h.symm i (Finset.mem_range.mpr hi) k (Finset.mem_range.mpr hk))

include hmath

/-- The denominator is positive. -/
theorem gainDenominator_pos (hsource : source.vector ≠ ⟨0, 0, 0⟩) (hdifferent : ∃ i < n, ∃ k < n,
    s.interauralDifference math source i ≠ s.interauralDifference math source k) :
    0 < s.gainDenominator math n source := by
  have hlength : 0 < XYZ.getLength math source.vector :=
    lt_of_le_of_ne (XYZ.getLength_nonneg hmath _) fun h =>
      hsource ((XYZ.getLength_eq_zero_iff hmath _).mp h.symm)
  have himage := XYZ.getLength_nonneg hmath (s.imagePosition source)
  exact div_pos (mul_pos (s.squareSum_mul_sub_pos hdifferent) (by positivity)) hlength

omit hmath [IsStrictOrderedRing K] in
/-- The image is in the direction of the source: the differences cancel out. -/
theorem sum_unlimitedGains_mul : ∑ i ∈ Finset.range n,
    s.unlimitedGains math n source i * s.interauralDifference math source i = 0 := by
  have hterm : ∀ i, s.unlimitedGains math n source i * s.interauralDifference math source i =
      (s.squareSum math n source * s.interauralDifference math source i -
        s.differenceSum math n source * (s.interauralDifference math source i *
          s.interauralDifference math source i)) / s.gainDenominator math n source := fun i => by
    unfold unlimitedGains
    ring
  simp only [hterm]
  rw [← Finset.sum_div, Finset.sum_sub_distrib, ← Finset.mul_sum, ← Finset.mul_sum]
  show (s.squareSum math n source * s.differenceSum math n source -
    s.differenceSum math n source * s.squareSum math n source) / _ = 0
  rw [mul_comm, sub_self, zero_div]

/-- The level of the image. -/
theorem sum_unlimitedGains (hdifferent : ∃ i < n, ∃ k < n,
    s.interauralDifference math source i ≠ s.interauralDifference math source k) :
    ∑ i ∈ Finset.range n, s.unlimitedGains math n source i =
      XYZ.getLength math source.vector /
        (XYZ.getLength math (s.imagePosition source) + 1 / 100) := by
  have hspread := (s.squareSum_mul_sub_pos hdifferent).ne'
  have himage : XYZ.getLength math (s.imagePosition source) + 1 / 100 ≠ 0 := by
    have hnonneg := XYZ.getLength_nonneg hmath (s.imagePosition source)
    positivity
  have hsum : ∑ i ∈ Finset.range n, s.unlimitedGains math n source i =
      (s.squareSum math n source * n -
        s.differenceSum math n source * s.differenceSum math n source) /
        s.gainDenominator math n source := by
    unfold unlimitedGains
    rw [← Finset.sum_div, Finset.sum_add_distrib, ← Finset.mul_sum, Finset.sum_const,
      Finset.card_range, nsmul_eq_mul]
    show (-s.differenceSum math n source * s.differenceSum math n source + _) / _ = _
    ring
  rw [hsum]
  unfold gainDenominator
  rw [div_div_eq_mul_div, mul_div_mul_left _ _ hspread, Nat.cast_ofNat]

omit hmath in
/-- The gains are combinations of the differences and of a constant, so they have the least energy
of all gains with the same two sums. -/
theorem unlimitedGains_least {h : ℕ → K}
    (hdirection : ∑ i ∈ Finset.range n, h i * s.interauralDifference math source i =
      ∑ i ∈ Finset.range n, s.unlimitedGains math n source i *
        s.interauralDifference math source i)
    (hlevel : ∑ i ∈ Finset.range n, h i =
      ∑ i ∈ Finset.range n, s.unlimitedGains math n source i) :
    ∑ i ∈ Finset.range n, s.unlimitedGains math n source i * s.unlimitedGains math n source i ≤
      ∑ i ∈ Finset.range n, h i * h i := by
  let rows : Fin 2 → ℕ → K := ![s.interauralDifference math source, fun _ => 1]
  let weights : Fin 2 → K :=
    ![-s.differenceSum math n source / s.gainDenominator math n source,
      s.squareSum math n source / s.gainDenominator math n source]
  have hcombination : ∀ i ∈ Finset.range n,
      s.unlimitedGains math n source i = ∑ k, weights k * rows k i := by
    intro i _
    rw [Fin.sum_univ_two]
    show _ = -s.differenceSum math n source / s.gainDenominator math n source *
      s.interauralDifference math source i +
        s.squareSum math n source / s.gainDenominator math n source * 1
    unfold unlimitedGains
    ring
  -- gains with the same sums have the same products with both rows
  have hrows : ∀ k, ∑ i ∈ Finset.range n, h i * rows k i =
      ∑ i ∈ Finset.range n, s.unlimitedGains math n source i * rows k i := by
    rw [Fin.forall_fin_two]
    refine ⟨hdirection, ?_⟩
    show ∑ i ∈ Finset.range n, h i * 1 = ∑ i ∈ Finset.range n, _ * 1
    simpa only [mul_one] using hlevel
  exact sum_mul_self_le_of_combination hcombination fun k _ => hrows k

/-- **The gains before the limit solve the equations of the panning with the least energy**, for any
listener and any three or more loudspeakers. -/
theorem calcGains_leastEnergy (sourcePos : ℕ → XYZ K) (j : ℕ)
    (hn : 3 ≤ s.array.getNumRegularSpeakers) (hsource : (sourcePos j).vector ≠ ⟨0, 0, 0⟩)
    (hdifferent : ∃ i < s.array.getNumRegularSpeakers, ∃ k < s.array.getNumRegularSpeakers,
      s.interauralDifference math (sourcePos j) i ≠ s.interauralDifference math (sourcePos j) k) :
    let n := s.array.getNumRegularSpeakers
    let a := s.interauralDifference math (sourcePos j)
    let g := s.unlimitedGains math n (sourcePos j)
    let level := XYZ.getLength math (sourcePos j).vector /
      (XYZ.getLength math (s.imagePosition (sourcePos j)) + 1 / 100)
    (∀ i < n, s.calcGains math sourcePos j i = s.limitRow n g i) ∧
      0 < s.gainDenominator math n (sourcePos j) ∧
      ∑ i ∈ Finset.range n, g i * a i = 0 ∧ ∑ i ∈ Finset.range n, g i = level ∧
      ∀ h : ℕ → K, ∑ i ∈ Finset.range n, h i * a i = 0 → ∑ i ∈ Finset.range n, h i = level →
        ∑ i ∈ Finset.range n, g i * g i ≤ ∑ i ∈ Finset.range n, h i * h i := by
  intro n a g level
  have hdirection : ∑ i ∈ Finset.range n, g i * a i = 0 := s.sum_unlimitedGains_mul
  have hlevel : ∑ i ∈ Finset.range n, g i = level := s.sum_unlimitedGains hmath hdifferent
  refine ⟨fun i hi => ?_, s.gainDenominator_pos hmath hsource hdifferent, hdirection, hlevel,
    fun h hzero hsum => ?_⟩
  · rw [← energyGains_eq]
    unfold calcGains
    dsimp only
    rw [if_pos hn, if_pos hi]
  · exact s.unlimitedGains_least (hzero.trans hdirection.symm) (hsum.trans hlevel.symm)

end Energy

/-- Three loudspeakers on the axes, and a listener in the origin with the ears on the second one. -/
def threeLoudspeakers (K : Type) [Field K] : CAP K where
  array := {
    is2D := false
    isInfinite := false
    numberOfSpeakers := 3
    position := fun i => if i = 0 then ⟨1, 0, 0, false⟩ else
      if i = 1 then ⟨0, 1, 0, false⟩ else ⟨0, 0, 1, false⟩
    triplet := []
    channel := [0, 1, 2]
    id := OrderedMap.empty
    subwooferChannels := []
    subwooferGains := fun _ _ => 0
    reRoutingCoeff := fun _ _ => 0
    gainAdjustment := fun _ => 1
    delayAdjustment := fun _ => 0
    outputEqs := none }
  listenerPos := ⟨0, 0, 0⟩
  listenerAuralAxis := ⟨0, 1, 0⟩
  nSources := 1
  maxGainPreComp := 3 / (2 : ℕ)
  maxGain := (10 : ℕ)
  HFmode := false

/-- A source in front of the listener. -/
theorem calcGains_leastEnergy_front :
    let math : CMath ℝ := ⟨Real.sqrt, Real.cos, Real.sin, Real.pi / 180⟩
    ∑ i ∈ Finset.range 3, (threeLoudspeakers ℝ).unlimitedGains math 3 ⟨1, 0, 0, false⟩ i =
      XYZ.getLength math ⟨1, 0, 0⟩ /
        (XYZ.getLength math ((threeLoudspeakers ℝ).imagePosition ⟨1, 0, 0, false⟩) + 1 / 100) := by
  intro math
  have hmath : math.Exact := ⟨fun _ _ => Real.sqrt_nonneg _, fun _ h => Real.mul_self_sqrt h⟩
  refine (calcGains_leastEnergy hmath (threeLoudspeakers ℝ) (fun _ => ⟨1, 0, 0, false⟩) 0 le_rfl ?_
    ⟨0, by decide, 1, by decide, ?_⟩).2.2.2.1
  · intro h
    exact one_ne_zero (congrArg Vector3D.x h)
  · simp [interauralDifference, speakerDirection, threeLoudspeakers, imagePosition, XYZ.vector,
      XYZ.normalise, XYZ.getLength, Vector3D.sub, Vector3D.dot, Vector3D.scale, math]

end CAP

end Visr
