import Mathlib.Algebra.BigOperators.Ring.Finset
import Visr.Librcl.PanningCalculator

/-!
# The norm of panning gains

Gains are scaled to a given norm.

## Main results

* `PanningCalculator.sigNorm_normalise_iff` — **which gains have the norm that is wanted**.
-/

namespace Visr

variable {K : Type} [Field K] [LinearOrder K]

namespace PanningCalculator

/-- The sum of the magnitudes of the gains, or the root of the sum of their squares. -/
def gainNorm (math : CMath K) (mode : Normalisation) (n : ℕ) (v : ℕ → K) : K :=
  match mode with
  | .Amplitude => ∑ i ∈ Finset.range n, |v i|
  | .Energy => math.sqrt (∑ i ∈ Finset.range n, v i * v i)
  | .Default => 1

section Accumulate

variable {n : ℕ} {g : ℕ → Option K}

omit [LinearOrder K] in
/-- The loop of `std::accumulate()`. -/
theorem accumulate_some {v : ℕ → K} (f : K → K) (h : ∀ i < n, g i = some (v i)) :
    (List.range n).foldlM (fun acc i => (g i).map fun val => acc + f val) 0 =
      some (∑ i ∈ Finset.range n, f (v i)) := by
  induction n with
  | zero => rfl
  | succ n ih =>
    rw [List.range_succ, List.foldlM_append, ih fun i hi => h i (by omega), Option.bind_eq_bind,
      Option.bind_some, List.foldlM_cons, h n (Nat.lt_succ_self n), Finset.sum_range_succ]
    rfl

omit [LinearOrder K] in
/-- The sum is not a number if one element is not a number. -/
theorem accumulate_none (f : K → K) {i : ℕ} (hi : i < n) (h : g i = none) :
    (List.range n).foldlM (fun acc i => (g i).map fun val => acc + f val) 0 = none := by
  induction n with
  | zero => omega
  | succ n ih =>
    rw [List.range_succ, List.foldlM_append, Option.bind_eq_bind]
    by_cases heq : i = n
    · subst heq
      refine Option.bind_eq_none_iff.mpr fun acc _ => ?_
      rw [List.foldlM_cons, h]
      rfl
    · rw [ih (by omega)]
      rfl

theorem sigNorm_some (math : CMath K) (mode : Normalisation) {v : ℕ → K}
    (h : ∀ i < n, g i = some (v i)) : sigNorm math mode n g = some (gainNorm math mode n v) := by
  cases mode with
  | Amplitude => exact accumulate_some (fun val => |val|) h
  | Energy =>
    show Option.map math.sqrt _ = _
    rw [accumulate_some (fun val => val * val) h]
    rfl
  | Default => rfl

theorem sigNorm_none (math : CMath K) {mode : Normalisation} (hmode : mode ≠ .Default) {i : ℕ}
    (hi : i < n) (h : g i = none) : sigNorm math mode n g = none := by
  cases mode with
  | Amplitude => exact accumulate_none (fun val => |val|) hi h
  | Energy =>
    show Option.map math.sqrt _ = _
    rw [accumulate_none (fun val => val * val) hi h]
    rfl
  | Default => exact absurd rfl hmode

end Accumulate

/-- Gains that are zero, or that can be scaled to the level. -/
def Normalisable (math : CMath K) (mode : Normalisation) (n : ℕ) (g : ℕ → Option K) (level : K) :
    Prop :=
  (∀ i < n, g i = some 0) ∨
    ∃ v : ℕ → K, (∀ i < n, g i = some (v i)) ∧
      (level = 0 ∨ 0 ≤ level ∧ epsilon K ≤ gainNorm math mode n v)

section Norm

variable [IsStrictOrderedRing K] {math : CMath K} (hmath : math.Exact) {mode : Normalisation}
  (hmode : mode ≠ .Default)

include hmath

/-- The root of a square. -/
theorem sqrt_eq {x y : K} (hy : 0 ≤ y) (h : y * y = x) : math.sqrt x = y := by
  have hx : 0 ≤ x := by
    rw [← h]
    exact mul_self_nonneg y
  rw [← mul_self_inj_of_nonneg (hmath.sqrt_nonneg x hx) hy, hmath.sqrt_mul_self x hx, h]

include hmode

theorem gainNorm_mul (n : ℕ) (f : K) (v : ℕ → K) :
    gainNorm math mode n (fun i => f * v i) = |f| * gainNorm math mode n v := by
  cases mode with
  | Amplitude =>
    show ∑ i ∈ Finset.range n, |f * v i| = |f| * ∑ i ∈ Finset.range n, |v i|
    rw [Finset.mul_sum]
    exact Finset.sum_congr rfl fun i _ => abs_mul f (v i)
  | Energy =>
    have hsum : 0 ≤ ∑ i ∈ Finset.range n, v i * v i :=
      Finset.sum_nonneg fun i _ => mul_self_nonneg (v i)
    refine sqrt_eq hmath (mul_nonneg (abs_nonneg f) (hmath.sqrt_nonneg _ hsum)) ?_
    show |f| * math.sqrt _ * (|f| * math.sqrt _) = ∑ i ∈ Finset.range n, f * v i * (f * v i)
    rw [mul_mul_mul_comm, abs_mul_abs_self, hmath.sqrt_mul_self _ hsum, Finset.mul_sum]
    exact Finset.sum_congr rfl fun i _ => mul_mul_mul_comm f f (v i) (v i)
  | Default => exact absurd rfl hmode

theorem gainNorm_pos {n : ℕ} {v : ℕ → K} {i : ℕ} (hi : i < n) (h : v i ≠ 0) :
    0 < gainNorm math mode n v := by
  have hmem : i ∈ Finset.range n := Finset.mem_range.mpr hi
  cases mode with
  | Amplitude =>
    exact Finset.sum_pos' (fun j _ => abs_nonneg (v j)) ⟨i, hmem, abs_pos.mpr h⟩
  | Energy =>
    have hsum : 0 < ∑ j ∈ Finset.range n, v j * v j :=
      Finset.sum_pos' (fun j _ => mul_self_nonneg (v j)) ⟨i, hmem, mul_self_pos.mpr h⟩
    refine lt_of_le_of_ne (hmath.sqrt_nonneg _ hsum.le) fun hzero => ?_
    have hroot := hmath.sqrt_mul_self _ hsum.le
    rw [← show (0 : K) = math.sqrt _ from hzero, mul_zero] at hroot
    exact hsum.ne hroot
  | Default => exact absurd rfl hmode

/-- **The gains have the norm that is wanted** if their norm has not been too small before, and if
the norm that is wanted is not negative. -/
theorem sigNorm_normalise_iff {n : ℕ} {g : ℕ → Option K} (level : K) {i : ℕ} (hi : i < n)
    (hne : g i ≠ some 0) :
    sigNorm math mode n (normalise math mode n g level) = some level ↔
      Normalisable math mode n g level := by
  have hzero : ¬ ∀ j < n, g j = some 0 := fun h => hne (h i hi)
  by_cases hnumbers : ∀ j < n, ∃ val, g j = some val
  · obtain ⟨v, hv⟩ : ∃ v : ℕ → K, ∀ j < n, g j = some (v j) := by
      refine ⟨fun j => (g j).getD 0, fun j hj => ?_⟩
      obtain ⟨val, hval⟩ := hnumbers j hj
      show g j = some ((g j).getD 0)
      rw [hval, Option.getD_some]
    have hpos : 0 < gainNorm math mode n v := by
      refine gainNorm_pos hmath hmode hi fun h => hne ?_
      rw [hv i hi, h]
    have hmax : 0 < max (gainNorm math mode n v) (epsilon K) := lt_max_of_lt_left hpos
    have hscaled : ∀ j < n, normalise math mode n g level j =
        some (level / max (gainNorm math mode n v) (epsilon K) * v j) := by
      intro j hj
      unfold normalise
      rw [sigNorm_some math mode hv, hv j hj]
      rfl
    rw [sigNorm_some math mode hscaled, gainNorm_mul hmath hmode, Option.some_inj, abs_div,
      abs_of_pos hmax, div_mul_eq_mul_div, div_eq_iff hmax.ne']
    have hiff : Normalisable math mode n g level ↔
        level = 0 ∨ 0 ≤ level ∧ epsilon K ≤ gainNorm math mode n v := by
      refine ⟨fun h => ?_, fun h => Or.inr ⟨v, hv, h⟩⟩
      obtain ⟨v', hv', h⟩ := h.resolve_left hzero
      have heq : gainNorm math mode n v' = gainNorm math mode n v := by
        rw [← Option.some_inj, ← sigNorm_some math mode hv, sigNorm_some math mode hv']
      rwa [heq] at h
    rw [hiff]
    constructor
    · intro h
      rcases lt_trichotomy level 0 with hlevel | hlevel | hlevel
      · -- A norm is not negative.
        exact absurd h (ne_of_gt ((mul_neg_of_neg_of_pos hlevel hmax).trans
          (mul_pos (abs_pos.mpr hlevel.ne) hpos)))
      · exact Or.inl hlevel
      · rw [abs_of_pos hlevel] at h
        exact Or.inr ⟨hlevel.le, max_eq_left_iff.mp (mul_left_cancel₀ hlevel.ne' h).symm⟩
    · rintro (hlevel | ⟨hlevel, hlarge⟩)
      · rw [hlevel, abs_zero, zero_mul, zero_mul]
      · rw [abs_of_nonneg hlevel, max_eq_left hlarge]
  · -- a gain that is not a number spoils the norm, and so all gains
    push Not at hnumbers
    obtain ⟨j, hj, hnone⟩ := hnumbers
    have hgnone : g j = none := Option.eq_none_iff_forall_ne_some.mpr hnone
    have hresult : sigNorm math mode n (normalise math mode n g level) = none := by
      refine sigNorm_none math hmode hj ?_
      unfold normalise
      rw [sigNorm_none math hmode hj hgnone]
    rw [hresult]
    refine iff_of_false nofun ?_
    rintro (h | ⟨v, hv, -⟩)
    · exact hzero h
    · rw [hv j hj] at hgnone
      cases hgnone

end Norm

end PanningCalculator

end Visr
