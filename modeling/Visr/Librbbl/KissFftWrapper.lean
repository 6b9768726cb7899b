import Visr.Libefl.Basic
import Visr.Librbbl.KissFftTransform

/-!
# Real transforms with KissFFT

A real signal of even length is transformed as a complex signal of half the length.  The wrapper
class holds one plan for each direction.

## Main results

* `KissFft.kissFftr_spec`, `KissFft.kissFftri_spec` — the transforms of real signals.
* `KissFftWrapper.create_transforms` — **the wrapper computes exact transforms** for all even
  lengths.
-/

namespace Visr

namespace KissFft

open Complex Dft Function MixedRadix
open scoped ComplexConjugate

/-- `kiss_fftr_state`.  The buffer is written before it is read in each call. -/
structure RealState (R : Type) where
  substate : State R
  tmpbuf : ℕ → Cpx R
  superTwiddles : ℕ → Cpx R

section Code

variable {R : Type} [Field R]

/-- The complex numbers in an array of real numbers. -/
def pairs (timedata : ℕ → R) (n : ℕ) : Cpx R := ⟨timedata (2 * n), timedata (2 * n + 1)⟩

/-- The real numbers in an array of complex numbers. -/
def parts (a : ℕ → Cpx R) (n : ℕ) : R := if n % 2 = 0 then (a (n / 2)).r else (a (n / 2)).i

/-- One iteration of the loop in `kiss_fftr()`. -/
def splitSpectrum (st : RealState R) (tmpbuf freqdata : ℕ → Cpx R) (k : ℕ) : ℕ → Cpx R :=
  let ncfft := st.substate.nfft
  let fpk := tmpbuf k
  let fpnk : Cpx R := ⟨(tmpbuf (ncfft - k)).r, -(tmpbuf (ncfft - k)).i⟩
  let f1k := fpk + fpnk
  let f2k := fpk - fpnk
  let tw := f2k * st.superTwiddles (k - 1)
  let freqdata := update freqdata k ⟨halfOf (f1k.r + tw.r), halfOf (f1k.i + tw.i)⟩
  update freqdata (ncfft - k) ⟨halfOf (f1k.r - tw.r), halfOf (tw.i - f1k.i)⟩

/-- `kiss_fftr()`, which calls `exit()` for a plan of the other direction. -/
def kissFftr (st : RealState R) (timedata : ℕ → R) (freqdata : ℕ → Cpx R) :
    Option (ℕ → Cpx R) :=
  if st.substate.inverse then none
  else
    let ncfft := st.substate.nfft
    let tmpbuf := kissFft st.substate (pairs timedata) st.tmpbuf
    let tdc := tmpbuf 0
    let freqdata := update freqdata 0 ⟨tdc.r + tdc.i, 0⟩
    let freqdata := update freqdata ncfft ⟨tdc.r - tdc.i, 0⟩
    some ((List.range (ncfft / 2)).foldl
      (fun freqdata j => splitSpectrum st tmpbuf freqdata (j + 1)) freqdata)

/-- One iteration of the loop in `kiss_fftri()`. -/
def mergeSpectrum (st : RealState R) (freqdata tmpbuf : ℕ → Cpx R) (k : ℕ) : ℕ → Cpx R :=
  let ncfft := st.substate.nfft
  let fk := freqdata k
  let fnkc : Cpx R := ⟨(freqdata (ncfft - k)).r, -(freqdata (ncfft - k)).i⟩
  let fek := fk + fnkc
  let tmp := fk - fnkc
  let fok := tmp * st.superTwiddles (k - 1)
  let tmpbuf := update tmpbuf k (fek + fok)
  let tmpbuf := update tmpbuf (ncfft - k) (fek - fok)
  update tmpbuf (ncfft - k) ⟨(tmpbuf (ncfft - k)).r, (tmpbuf (ncfft - k)).i * -1⟩

/-- `kiss_fftri()`. -/
def kissFftri (st : RealState R) (freqdata : ℕ → Cpx R) (timedata : ℕ → R) : Option (ℕ → R) :=
  if st.substate.inverse then
    let ncfft := st.substate.nfft
    let tmpbuf := update st.tmpbuf 0
      ⟨(freqdata 0).r + (freqdata ncfft).r, (freqdata 0).r - (freqdata ncfft).r⟩
    let tmpbuf := (List.range (ncfft / 2)).foldl
      (fun tmpbuf j => mergeSpectrum st freqdata tmpbuf (j + 1)) tmpbuf
    some (parts (kissFft st.substate tmpbuf (pairs timedata)))
  else none

end Code

/-- `kiss_fftr_alloc()`, where the memory for the buffer is not initialised. -/
noncomputable def kissFftrAlloc (nfft : ℕ) (inverseFft : Bool) (memory : ℕ → Cpx ℝ) :
    Option (RealState ℝ) :=
  if nfft % 2 = 1 then none
  else
    let nfft := nfft / 2
    some {
      substate := kissFftAlloc nfft inverseFft
      tmpbuf := memory
      superTwiddles := fun i =>
        let phase := -Real.pi * ((i + 1 : ℕ) / nfft + 1 / (2 : ℕ))
        kfCexp (if inverseFft then phase * -1 else phase) }

/-! ### Even and odd samples -/

section Halves

variable {M : ℕ} (x : ℕ → ℝ)

/-- The transforms of the even and of the odd samples. -/
noncomputable def half (M r : ℕ) (x : ℕ → ℝ) (k : ℕ) : ℂ :=
  spectrumOf ℂ (rootOf false M) M (fun n => x (n * 2 + r)) k

theorem conj_half (hM : M ≠ 0) (r : ℕ) {k : ℕ} (hk : k ≤ M) :
    conj (half M r x (M - k)) = half M r x k :=
  FftWrapper.conj_spectrum hM hk _

/-- The two halves of the spectrum. -/
theorem spectrumOf_eq_halves (hM : M ≠ 0) (u q : ℕ) :
    spectrumOf ℂ (rootOf false (M * 2)) (2 * M) x (u + q * M) =
      half M 0 x u + half M 1 x u * rootOf false (M * 2) ^ (u + q * M) := by
  have hroot : rootOf false (M * 2) ^ (2 * M) = 1 := by
    rw [Nat.mul_comm 2 M]
    exact (isPrimitiveRoot_rootOf false (Nat.mul_ne_zero hM two_ne_zero)).pow_eq_one
  have hsq : rootOf false (M * 2) ^ 2 = rootOf false M := rootOf_mul_pow false two_ne_zero
  rw [spectrumOf, dft_eq_combine hroot, combine, Finset.sum_range_succ, Finset.sum_range_succ,
    Finset.sum_range_zero, hsq]
  simp [half, spectrumOf]

/-- The transform of the complex signal. -/
theorem dft_pairs (k : ℕ) : dft (rootOf false M) M (view (pairs x)) k =
    half M 0 x k + I * half M 1 x k := by
  have hview : view (pairs x) = fun n => ((x (n * 2 + 0) : ℝ) : ℂ) + I * (x (n * 2 + 1) : ℝ) := by
    funext n
    apply Complex.ext
    · simp [view, pairs, Cpx.toComplex, Nat.mul_comm]
    · simp [view, pairs, Cpx.toComplex, Nat.mul_comm]
  rw [hview, dft_add, dft_mul_left]
  rfl

end Halves

/-! ### The conversions -/

section Conversions

variable {M : ℕ} (x : ℕ → ℝ)

/-- The plan for signals of length `2 * M`. -/
noncomputable def realPlan (M : ℕ) (inverseFft : Bool) (memory : ℕ → Cpx ℝ) : RealState ℝ where
  substate := kissFftAlloc M inverseFft
  tmpbuf := memory
  superTwiddles i :=
    let phase := -Real.pi * ((i + 1 : ℕ) / M + 1 / (2 : ℕ))
    kfCexp (if inverseFft then phase * -1 else phase)

theorem kissFftrAlloc_eq (nfft : ℕ) (inverseFft : Bool) (memory : ℕ → Cpx ℝ) :
    kissFftrAlloc nfft inverseFft memory =
      if nfft % 2 = 1 then none else some (realPlan (nfft / 2) inverseFft memory) := rfl

/-- The second table of a plan. -/
theorem superTwiddles_realPlan (hM : M ≠ 0) (inverseFft : Bool) (memory : ℕ → Cpx ℝ) (i : ℕ) :
    ((realPlan M inverseFft memory).superTwiddles i).toComplex =
      (if inverseFft then I else -I) * rootOf inverseFft (M * 2) ^ (i + 1) := by
  have hM' : (M : ℂ) ≠ 0 := Nat.cast_ne_zero.mpr hM
  have hideal : FftWrapper.idealRoot (M * 2) ^ (i + 1) =
      Complex.exp (-Real.pi * ((i + 1 : ℕ) / M) * I) := by
    rw [FftWrapper.idealRoot, ← Complex.exp_neg, ← Complex.exp_nat_mul]
    congr 1
    push_cast
    field_simp
  have hquarter (z : ℂ) : I * Complex.exp z = Complex.exp (Real.pi / 2 * I + z) := by
    rw [Complex.exp_add, Complex.exp_pi_div_two_mul_I]
  have hquarter' (z : ℂ) : -I * Complex.exp z = Complex.exp (-(Real.pi / 2) * I + z) := by
    rw [Complex.exp_add, neg_mul (_ / _), Complex.exp_neg, Complex.exp_pi_div_two_mul_I,
      Complex.inv_I]
  simp only [realPlan, toComplex_kfCexp]
  cases inverseFft with
  | true =>
    simp only [rootOf, if_true, inv_pow, hideal, ← Complex.exp_neg]
    rw [hquarter]
    congr 1
    push_cast
    ring
  | false =>
    simp only [rootOf, Bool.false_eq_true, if_false, hideal]
    rw [hquarter']
    congr 1
    push_cast
    ring

theorem toComplex_conj (a : Cpx ℝ) : (⟨a.r, -a.i⟩ : Cpx ℝ).toComplex = conj a.toComplex := rfl

theorem toComplex_half_add (a b : Cpx ℝ) :
    (⟨halfOf (a.r + b.r), halfOf (a.i + b.i)⟩ : Cpx ℝ).toComplex =
      (a.toComplex + b.toComplex) / 2 := by
  have hhalf : ((1 / 2 : ℝ) : ℂ) = 1 / 2 := by norm_num
  rw [div_eq_mul_one_div, ← hhalf]
  apply Complex.ext <;> simp [Cpx.toComplex, halfOf]

theorem toComplex_half_sub (a b : Cpx ℝ) :
    (⟨halfOf (a.r - b.r), halfOf (b.i - a.i)⟩ : Cpx ℝ).toComplex =
      conj ((a.toComplex - b.toComplex) / 2) := by
  have hhalf : ((1 / 2 : ℝ) : ℂ) = 1 / 2 := by norm_num
  rw [div_eq_mul_one_div, ← hhalf]
  apply Complex.ext
  · simp [Cpx.toComplex, halfOf]
  · simp [Cpx.toComplex, halfOf]
    ring

end Conversions

/-! ### The loops -/

section Loops

variable {M : ℕ} (x : ℕ → ℝ)

/-- An element is concerned by the iteration for the element at the other end, too. -/
def Touched (M j i : ℕ) : Prop := i = j + 1 ∨ i = M - (j + 1)

theorem exists_touched {i : ℕ} (hi : 0 < i) (hlt : i < M) : ∃ j < M / 2, Touched M j i := by
  rcases Nat.lt_or_ge (M / 2) i with h | h
  · exact ⟨M - i - 1, by omega, .inr (by omega)⟩
  · exact ⟨i - 1, by omega, .inl (by omega)⟩

theorem not_touched {i j : ℕ} (hj : j < M / 2) (hi : i = 0 ∨ M ≤ i) : ¬ Touched M j i := by
  unfold Touched
  omega

/-- The half of the spectrum at the other end. -/
theorem spectrumOf_reflect (hM : M ≠ 0) {k : ℕ} (hk : k ≤ M) :
    spectrumOf ℂ (rootOf false (M * 2)) (2 * M) x (M - k) =
      conj (half M 0 x k - half M 1 x k * rootOf false (M * 2) ^ k) := by
  have hroot := isPrimitiveRoot_rootOf false (Nat.mul_ne_zero hM two_ne_zero)
  have hneg : rootOf false (M * 2) ^ M = -1 := by
    rw [Nat.mul_comm, rootOf_mul_pow false hM, rootOf_two]
  have hpow : rootOf false (M * 2) ^ (M - k) = -conj (rootOf false (M * 2) ^ k) := by
    rw [map_pow, conj_rootOf, inv_pow, eq_neg_iff_add_eq_zero]
    have hne : rootOf false (M * 2) ^ k ≠ 0 := pow_ne_zero _ (hroot.ne_zero
      (Nat.mul_ne_zero hM two_ne_zero))
    field_simp
    rw [← pow_add, Nat.sub_add_cancel hk, hneg]
    ring
  have hsplit := spectrumOf_eq_halves x hM (M - k) 0
  rw [Nat.zero_mul, Nat.add_zero] at hsplit
  rw [hsplit, map_sub, map_mul, ← conj_half x hM 0 hk, ← conj_half x hM 1 hk, Complex.conj_conj,
    Complex.conj_conj, hpow]
  ring

/-! The two elements that an iteration writes, in terms of the even samples (`a`) and the odd ones
(`b`). -/

theorem split_add (a b t : ℂ) :
    (a + I * b + (a - I * b) + (a + I * b - (a - I * b)) * (-I * t)) / 2 = a + b * t := by
  linear_combination (-b * t) * Complex.I_sq

theorem split_sub (a b t : ℂ) :
    (a + I * b + (a - I * b) - (a + I * b - (a - I * b)) * (-I * t)) / 2 = a - b * t := by
  linear_combination (b * t) * Complex.I_sq

theorem merge_add {t t' : ℂ} (h : t * t' = 1) (a b : ℂ) :
    a + b * t + (a - b * t) + (a + b * t - (a - b * t)) * (I * t') = 2 * (a + I * b) := by
  linear_combination (2 * I * b) * h

theorem merge_sub {t t' : ℂ} (h : t * t' = 1) (a b : ℂ) :
    a + b * t + (a - b * t) - (a + b * t - (a - b * t)) * (I * t') = 2 * (a - I * b) := by
  linear_combination (-2 * I * b) * h

theorem rootOf_pow_mul_pow (hM : M ≠ 0) (k : ℕ) :
    rootOf false (M * 2) ^ k * rootOf true (M * 2) ^ k = 1 := by
  have hne : rootOf false (M * 2) ≠ 0 :=
    (isPrimitiveRoot_rootOf false (Nat.mul_ne_zero hM two_ne_zero)).ne_zero
      (Nat.mul_ne_zero hM two_ne_zero)
  rw [← mul_pow]
  simp only [rootOf, Bool.false_eq_true, if_false, if_true] at hne ⊢
  rw [mul_inv_cancel₀ hne, one_pow]

/-- **One iteration of the forward transform.** -/
theorem splitSpectrum_spec (hM : M ≠ 0) {memory tmpbuf : ℕ → Cpx ℝ}
    (htmpbuf : ∀ k < M, view tmpbuf k = half M 0 x k + I * half M 1 x k)
    (freqdata : ℕ → Cpx ℝ) {j : ℕ} (hj : j < M / 2) (i : ℕ) :
    (Touched M j i → view (splitSpectrum (realPlan M false memory) tmpbuf freqdata (j + 1)) i =
      spectrumOf ℂ (rootOf false (M * 2)) (2 * M) x i) ∧
    (¬ Touched M j i →
      view (splitSpectrum (realPlan M false memory) tmpbuf freqdata (j + 1)) i =
        view freqdata i) := by
  have hk : (tmpbuf (j + 1)).toComplex = half M 0 x (j + 1) + I * half M 1 x (j + 1) :=
    htmpbuf (j + 1) (by omega)
  have hreflected : (⟨(tmpbuf (M - (j + 1))).r, -(tmpbuf (M - (j + 1))).i⟩ : Cpx ℝ).toComplex =
      half M 0 x (j + 1) - I * half M 1 x (j + 1) := by
    have hvalue : (tmpbuf (M - (j + 1))).toComplex =
        half M 0 x (M - (j + 1)) + I * half M 1 x (M - (j + 1)) := htmpbuf _ (by omega)
    rw [toComplex_conj, hvalue, map_add, map_mul, conj_half x hM 0 (by omega),
      conj_half x hM 1 (by omega), Complex.conj_I]
    ring
  have hsuper : ((realPlan M false memory).superTwiddles j).toComplex =
      -I * rootOf false (M * 2) ^ (j + 1) := superTwiddles_realPlan hM false memory j
  have hsplit := spectrumOf_eq_halves x hM (j + 1) 0
  rw [Nat.zero_mul, Nat.add_zero] at hsplit
  have hreflect := spectrumOf_reflect x hM (by omega : j + 1 ≤ M)
  have hnfft : (realPlan M false memory).substate.nfft = M := rfl
  simp only [splitSpectrum, hnfft, Nat.add_sub_cancel, view_update, toComplex_half_add,
    toComplex_half_sub, Cpx.toComplex_add, Cpx.toComplex_sub, Cpx.toComplex_mul, hk, hreflected,
    hsuper, split_add, split_sub, ← hsplit, ← hreflect]
  refine ⟨fun htouched => ?_, fun hother => ?_⟩
  · by_cases hend : i = M - (j + 1)
    · rw [hend, update_self]
    · rw [update_of_ne hend, htouched.resolve_right hend, update_self]
  · rw [update_of_ne fun h => hother (.inr h), update_of_ne fun h => hother (.inl h)]

/-- **One iteration of the inverse transform.** -/
theorem mergeSpectrum_spec (hM : M ≠ 0) {memory freqdata : ℕ → Cpx ℝ}
    (hfreqdata : ∀ k ≤ M, view freqdata k = spectrumOf ℂ (rootOf false (M * 2)) (2 * M) x k)
    (tmpbuf : ℕ → Cpx ℝ) {j : ℕ} (hj : j < M / 2) (i : ℕ) :
    (Touched M j i → view (mergeSpectrum (realPlan M true memory) freqdata tmpbuf (j + 1)) i =
      2 * (half M 0 x i + I * half M 1 x i)) ∧
    (¬ Touched M j i →
      view (mergeSpectrum (realPlan M true memory) freqdata tmpbuf (j + 1)) i = view tmpbuf i) := by
  have hsplit := spectrumOf_eq_halves x hM (j + 1) 0
  rw [Nat.zero_mul, Nat.add_zero] at hsplit
  have hk : (freqdata (j + 1)).toComplex =
      half M 0 x (j + 1) + half M 1 x (j + 1) * rootOf false (M * 2) ^ (j + 1) :=
    (hfreqdata (j + 1) (by omega)).trans hsplit
  have hreflected : (⟨(freqdata (M - (j + 1))).r, -(freqdata (M - (j + 1))).i⟩ :
      Cpx ℝ).toComplex =
        half M 0 x (j + 1) - half M 1 x (j + 1) * rootOf false (M * 2) ^ (j + 1) := by
    have hvalue : (freqdata (M - (j + 1))).toComplex =
        spectrumOf ℂ (rootOf false (M * 2)) (2 * M) x (M - (j + 1)) := hfreqdata _ (by omega)
    rw [toComplex_conj, hvalue, spectrumOf_reflect x hM (by omega), Complex.conj_conj]
  have hsuper : ((realPlan M true memory).superTwiddles j).toComplex =
      I * rootOf true (M * 2) ^ (j + 1) := superTwiddles_realPlan hM true memory j
  have hinv := rootOf_pow_mul_pow hM (j + 1)
  have hconj : conj (2 * (half M 0 x (j + 1) - I * half M 1 x (j + 1))) =
      2 * (half M 0 x (M - (j + 1)) + I * half M 1 x (M - (j + 1))) := by
    rw [← conj_half x hM 0 (by omega : j + 1 ≤ M), ← conj_half x hM 1 (by omega : j + 1 ≤ M)]
    simp [map_ofNat]
  have hnfft : (realPlan M true memory).substate.nfft = M := rfl
  have hneg (a : Cpx ℝ) : (⟨a.r, a.i * -1⟩ : Cpx ℝ).toComplex = conj a.toComplex := by
    rw [← toComplex_conj, mul_neg_one]
  simp only [mergeSpectrum, hnfft, Nat.add_sub_cancel, view_update, update_self, hneg,
    Cpx.toComplex_add, Cpx.toComplex_sub, Cpx.toComplex_mul, hk, hreflected, hsuper,
    merge_add hinv, merge_sub hinv, hconj]
  refine ⟨fun htouched => ?_, fun hother => ?_⟩
  · by_cases hend : i = M - (j + 1)
    · rw [hend, update_self]
    · rw [update_of_ne hend, update_of_ne hend, htouched.resolve_right hend, update_self]
  · rw [update_of_ne fun h => hother (.inr h), update_of_ne fun h => hother (.inr h),
      update_of_ne fun h => hother (.inl h)]

/-- The loop of the forward transform writes all elements but the first and the last one. -/
theorem foldl_splitSpectrum (hM : M ≠ 0) (memory : ℕ → Cpx ℝ) {tmpbuf : ℕ → Cpx ℝ}
    (htmpbuf : ∀ k < M, view tmpbuf k = half M 0 x k + I * half M 1 x k)
    (freqdata : ℕ → Cpx ℝ) (k : ℕ) :
    (0 < k → k < M → view ((List.range (M / 2)).foldl (fun freqdata j =>
        splitSpectrum (realPlan M false memory) tmpbuf freqdata (j + 1)) freqdata) k =
      spectrumOf ℂ (rootOf false (M * 2)) (2 * M) x k) ∧
    (k = 0 ∨ M ≤ k → view ((List.range (M / 2)).foldl (fun freqdata j =>
        splitSpectrum (realPlan M false memory) tmpbuf freqdata (j + 1)) freqdata) k =
      view freqdata k) := by
  obtain ⟨hdone, hother⟩ := targets_foldl
    (fun s j hj i => splitSpectrum_spec x hM htmpbuf s hj i) freqdata k
  exact ⟨fun hpos hlt => hdone (exists_touched hpos hlt),
    fun hend => hother fun j hj => not_touched hj hend⟩

/-- The loop of the inverse transform writes all elements but the first one. -/
theorem foldl_mergeSpectrum (hM : M ≠ 0) (memory : ℕ → Cpx ℝ) {freqdata : ℕ → Cpx ℝ}
    (hfreqdata : ∀ k ≤ M, view freqdata k = spectrumOf ℂ (rootOf false (M * 2)) (2 * M) x k)
    (tmpbuf : ℕ → Cpx ℝ) (k : ℕ) :
    (0 < k → k < M → view ((List.range (M / 2)).foldl (fun tmpbuf j =>
        mergeSpectrum (realPlan M true memory) freqdata tmpbuf (j + 1)) tmpbuf) k =
      2 * (half M 0 x k + I * half M 1 x k)) ∧
    (k = 0 ∨ M ≤ k → view ((List.range (M / 2)).foldl (fun tmpbuf j =>
        mergeSpectrum (realPlan M true memory) freqdata tmpbuf (j + 1)) tmpbuf) k =
      view tmpbuf k) := by
  obtain ⟨hdone, hother⟩ := targets_foldl
    (fun s j hj i => mergeSpectrum_spec x hM hfreqdata s hj i) tmpbuf k
  exact ⟨fun hpos hlt => hdone (exists_touched hpos hlt),
    fun hend => hother fun j hj => not_touched hj hend⟩

end Loops

/-! ### The transforms -/

section Transforms

variable {M : ℕ} (x : ℕ → ℝ)

theorem toComplex_injective : Injective Cpx.toComplex := by
  intro a b h
  obtain ⟨hr, hi⟩ := Complex.ext_iff.mp h
  cases a
  cases b
  simp only [Cpx.toComplex] at hr hi
  rw [hr, hi]

theorem toComplex_real (r : ℝ) : (⟨r, 0⟩ : Cpx ℝ).toComplex = r := rfl

/-- The transforms of the halves are real at the frequency zero. -/
theorem ofReal_half (hM : M ≠ 0) (r : ℕ) : ((half M r x 0).re : ℂ) = half M r x 0 := by
  have hconj := conj_half x hM r (Nat.le_refl M)
  have hperiod : half M r x M = half M r x 0 := by
    have hroot := isPrimitiveRoot_rootOf false hM
    simp only [half, spectrumOf, dft]
    apply Finset.sum_congr rfl
    intro n _
    rw [Nat.mul_comm n M, pow_mul, hroot.pow_eq_one, one_pow, Nat.mul_zero, pow_zero]
  rw [Nat.sub_self, hperiod] at hconj
  exact Complex.conj_eq_iff_re.mp hconj

/-- The first and the last element of the spectrum. -/
theorem spectrumOf_ends (hM : M ≠ 0) :
    spectrumOf ℂ (rootOf false (M * 2)) (2 * M) x 0 = half M 0 x 0 + half M 1 x 0 ∧
    spectrumOf ℂ (rootOf false (M * 2)) (2 * M) x M = half M 0 x 0 - half M 1 x 0 := by
  have hneg : rootOf false (M * 2) ^ M = -1 := by
    rw [Nat.mul_comm, rootOf_mul_pow false hM, rootOf_two]
  have hfirst := spectrumOf_eq_halves x hM 0 0
  have hlast := spectrumOf_eq_halves x hM 0 1
  rw [Nat.zero_mul, Nat.add_zero, pow_zero, mul_one] at hfirst
  rw [Nat.one_mul, Nat.zero_add, hneg, mul_neg_one, ← sub_eq_add_neg] at hlast
  exact ⟨hfirst, hlast⟩

/-- **The transform of a real signal.** -/
theorem kissFftr_spec (hM : M ≠ 0) (memory freqdata : ℕ → Cpx ℝ) :
    ∃ f, kissFftr (realPlan M false memory) x freqdata = some f ∧
      (∀ k ≤ M, view f k = spectrumOf ℂ (rootOf false (M * 2)) (2 * M) x k) ∧
      ∀ k, M < k → f k = freqdata k := by
  obtain ⟨hfirst, hlast⟩ := spectrumOf_ends x hM
  have htmpbuf : ∀ k < M, view (kissFft (kissFftAlloc M false) (pairs x) memory) k =
      half M 0 x k + I * half M 1 x k := by
    intro k hk
    rw [(kissFft_spec (Nat.pos_of_ne_zero hM) false (pairs x) memory).1 k hk, dft_pairs]
  have hzero : (kissFft (kissFftAlloc M false) (pairs x) memory 0).toComplex =
      half M 0 x 0 + I * half M 1 x 0 := htmpbuf 0 (Nat.pos_of_ne_zero hM)
  have heven := ofReal_half x hM 0
  have hodd := ofReal_half x hM 1
  rw [← heven, ← hodd] at hzero hfirst hlast
  have hre : (kissFft (kissFftAlloc M false) (pairs x) memory 0).r = (half M 0 x 0).re := by
    simpa [Cpx.toComplex] using congrArg Complex.re hzero
  have him : (kissFft (kissFftAlloc M false) (pairs x) memory 0).i = (half M 1 x 0).re := by
    simpa [Cpx.toComplex] using congrArg Complex.im hzero
  -- the two elements before the loop, and the loop over the others
  have hloop := foldl_splitSpectrum x hM memory htmpbuf
  have hplan : (realPlan M false memory).substate = kissFftAlloc M false := rfl
  have hmemory : (realPlan M false memory).tmpbuf = memory := rfl
  have hdirection : (kissFftAlloc M false).inverse = false := rfl
  have hnfft : (kissFftAlloc M false).nfft = M := rfl
  simp only [kissFftr, hplan, hmemory, hdirection, hnfft, Bool.false_eq_true, if_false, hre, him]
  refine ⟨_, rfl, fun k hk => ?_, fun k hk => toComplex_injective ?_⟩
  · rcases Nat.eq_zero_or_pos k with rfl | hpos
    · rw [(hloop _ 0).2 (.inl rfl), view_update, view_update, update_of_ne hM.symm, update_self,
        hfirst, toComplex_real, Complex.ofReal_add]
    · rcases Nat.lt_or_ge k M with hlt | hge
      · exact (hloop _ k).1 hpos hlt
      · obtain rfl : k = M := Nat.le_antisymm hk hge
        rw [(hloop _ k).2 (.inr hge), view_update, update_self, hlast, toComplex_real,
          Complex.ofReal_sub]
  · change view _ k = view freqdata k
    rw [(hloop _ k).2 (.inr hk.le), view_update, view_update, update_of_ne hk.ne',
      update_of_ne (by omega)]

/-- The real numbers of a complex signal. -/
theorem parts_eq {a b : ℕ → Cpx ℝ} (n : ℕ) (h : a (n / 2) = b (n / 2)) : parts a n = parts b n := by
  simp only [parts, h]

theorem parts_pairs (n : ℕ) : parts (pairs x) n = x n := by
  rcases Nat.mod_two_eq_zero_or_one n with h | h
  · simp only [parts, pairs, h, if_true]
    congr 1
    omega
  · simp only [parts, pairs, h, one_ne_zero, if_false]
    congr 1
    omega

theorem parts_mulByScalar (a : ℕ → Cpx ℝ) (c : ℝ) (n : ℕ) :
    parts (fun m => (a m).mulByScalar c) n = parts a n * c := by
  rcases Nat.mod_two_eq_zero_or_one n with h | h <;> simp [parts, h, Cpx.mulByScalar]

/-- **The inverse transform of a spectrum.** -/
theorem kissFftri_spec (hM : M ≠ 0) (memory : ℕ → Cpx ℝ) {freqdata : ℕ → Cpx ℝ}
    (hfreqdata : ∀ k ≤ M, view freqdata k = spectrumOf ℂ (rootOf false (M * 2)) (2 * M) x k)
    (timedata : ℕ → ℝ) :
    ∃ y, kissFftri (realPlan M true memory) freqdata timedata = some y ∧
      (∀ n < 2 * M, y n = (2 * M : ℕ) * x n) ∧ ∀ n, 2 * M ≤ n → y n = timedata n := by
  obtain ⟨hfirst, hlast⟩ := spectrumOf_ends x hM
  rw [← hfreqdata 0 (Nat.zero_le M), ← ofReal_half x hM 0, ← ofReal_half x hM 1] at hfirst
  rw [← hfreqdata M (Nat.le_refl M), ← ofReal_half x hM 0, ← ofReal_half x hM 1] at hlast
  have hsum : (freqdata 0).r + (freqdata M).r = 2 * (half M 0 x 0).re := by
    have h0 := congrArg Complex.re hfirst
    have hM := congrArg Complex.re hlast
    simp only [view, Cpx.toComplex, Complex.add_re, Complex.sub_re, Complex.ofReal_re] at h0 hM
    linarith
  have hdifference : (freqdata 0).r - (freqdata M).r = 2 * (half M 1 x 0).re := by
    have h0 := congrArg Complex.re hfirst
    have hM := congrArg Complex.re hlast
    simp only [view, Cpx.toComplex, Complex.add_re, Complex.sub_re, Complex.ofReal_re] at h0 hM
    linarith
  have hzero : (⟨2 * (half M 0 x 0).re, 2 * (half M 1 x 0).re⟩ : Cpx ℝ).toComplex =
      2 * (half M 0 x 0 + I * half M 1 x 0) := by
    rw [← ofReal_half x hM 0, ← ofReal_half x hM 1]
    apply Complex.ext <;> simp [Cpx.toComplex]
  -- the element before the loop, and the loop over the others
  have hloop := foldl_mergeSpectrum x hM memory hfreqdata
  have hplan : (realPlan M true memory).substate = kissFftAlloc M true := rfl
  have hmemory : (realPlan M true memory).tmpbuf = memory := rfl
  have hdirection : (kissFftAlloc M true).inverse = true := rfl
  have hnfft : (kissFftAlloc M true).nfft = M := rfl
  simp only [kissFftri, hplan, hmemory, hdirection, hnfft, if_true, hsum, hdifference]
  have htmpbuf : ∀ k < M, view ((List.range (M / 2)).foldl
      (fun tmpbuf j => mergeSpectrum (realPlan M true memory) freqdata tmpbuf (j + 1))
      (update memory 0 ⟨2 * (half M 0 x 0).re, 2 * (half M 1 x 0).re⟩)) k =
        2 * dft (rootOf false M) M (view (pairs x)) k := by
    intro k hk
    rw [dft_pairs]
    rcases Nat.eq_zero_or_pos k with rfl | hpos
    · rw [(hloop _ 0).2 (.inl rfl), view_update, update_self, hzero]
    · exact (hloop _ k).1 hpos hk
  obtain ⟨htransform, hother⟩ := kissFft_spec (Nat.pos_of_ne_zero hM) true
    ((List.range (M / 2)).foldl
      (fun tmpbuf j => mergeSpectrum (realPlan M true memory) freqdata tmpbuf (j + 1))
      (update memory 0 ⟨2 * (half M 0 x 0).re, 2 * (half M 1 x 0).re⟩)) (pairs timedata)
  refine ⟨_, rfl, fun n hn => ?_, fun n hn => ?_⟩
  · have hvalue := htransform (n / 2) (by omega)
    have hinverse : rootOf true M = (rootOf false M)⁻¹ := rfl
    rw [dft_congr _ htmpbuf, dft_mul_left, hinverse,
      dft_inv_dft (isPrimitiveRoot_rootOf false hM) _ (by omega)] at hvalue
    have hscaled : ((pairs x (n / 2)).mulByScalar (2 * M : ℕ)).toComplex =
        2 * (M * view (pairs x) (n / 2)) := by
      rw [Cpx.toComplex_mulByScalar, view]
      push_cast
      ring
    rw [parts_eq n (b := fun m => (pairs x m).mulByScalar (2 * M : ℕ))
      (toComplex_injective (hvalue.trans hscaled.symm)), parts_mulByScalar, parts_pairs, mul_comm]
  · rw [parts_eq n (b := pairs timedata) (toComplex_injective (hother (n / 2) (by omega))),
      parts_pairs]

end Transforms

end KissFft

/-! ### The wrapper -/

/-- The plans of a wrapper. -/
structure KissFftWrapper (R : Type) where
  mFwdPlan : KissFft.RealState R
  mInvPlan : KissFft.RealState R

namespace KissFftWrapper

open Complex Dft KissFft

section Calls

variable {R : Type} [Field R] (w : KissFftWrapper R)

def forwardTransform (input : ℕ → R) (output : ℕ → Cpx R) : Option (ℕ → Cpx R) :=
  kissFftr w.mFwdPlan input output

def inverseTransform (input : ℕ → Cpx R) (output : ℕ → R) : Option (ℕ → R) :=
  kissFftri w.mInvPlan input output

def forwardScalingFactor : R := 1

def inverseScalingFactor : R := 1

end Calls

/-- The constructor.  The buffers of the two plans are in memory that is not initialised. -/
noncomputable def create (fftSize : ℕ) (fwdMemory invMemory : ℕ → Cpx ℝ) :
    Except Exception (KissFftWrapper ℝ) :=
  match kissFftrAlloc fftSize false fwdMemory with
  | none => .error (.invalidArgument "Initialisation of forward transform plan failed.")
  | some mFwdPlan =>
    match kissFftrAlloc fftSize true invMemory with
    | none => .error (.invalidArgument "Initialisation of inverse transform plan failed.")
    | some mInvPlan => .ok { mFwdPlan, mInvPlan }

/-- A wrapper transforms exactly, and writes half of the spectrum or the whole signal. -/
structure Exact (N : ℕ) (w : KissFftWrapper ℝ) : Prop where
  forward : ∀ x output, ∃ f, w.forwardTransform x output = some f ∧
    (∀ k ≤ N / 2, view f k = spectrumOf ℂ (FftWrapper.idealRoot N) N x k) ∧
    ∀ k, N / 2 < k → f k = output k
  inverse : ∀ x f output,
    (∀ k ≤ N / 2, view f k = spectrumOf ℂ (FftWrapper.idealRoot N) N x k) →
    ∃ y, w.inverseTransform f output = some y ∧
      (∀ n < N, y n = N * x n) ∧ ∀ n, N ≤ n → y n = output n

theorem exact_realPlan {M : ℕ} (hM : M ≠ 0) (fwdMemory invMemory : ℕ → Cpx ℝ) :
    Exact (M * 2) ⟨realPlan M false fwdMemory, realPlan M true invMemory⟩ := by
  have hhalf : M * 2 / 2 = M := Nat.mul_div_cancel M two_pos
  have hroot : FftWrapper.idealRoot (M * 2) = rootOf false (M * 2) := rfl
  constructor
  · intro x output
    rw [hhalf, hroot]
    have hspec := kissFftr_spec x hM fwdMemory output
    rwa [Nat.mul_comm 2 M] at hspec
  · intro x f output hf
    rw [hhalf, hroot] at hf
    have hspec := kissFftri_spec x hM invMemory (by rwa [Nat.mul_comm 2 M]) output
    rwa [Nat.mul_comm 2 M] at hspec

/-- An exact wrapper as an implementation of the interface, with buffers of zeros. -/
noncomputable def fftWrapper {N : ℕ} (hN : N ≠ 0) (w : KissFftWrapper ℝ) (h : Exact N w) :
    FftWrapper ℝ ℂ N where
  rootOfUnity := FftWrapper.idealRoot N
  forwardScalingFactor := forwardScalingFactor
  inverseScalingFactor := inverseScalingFactor
  forwardTransform x := view ((w.forwardTransform x fun _ => ⟨0, 0⟩).getD fun _ => ⟨0, 0⟩)
  inverseTransform X := (w.inverseTransform (fun k => ⟨(X k).re, (X k).im⟩) fun _ => 0).getD 0
  root_pow := FftWrapper.idealRoot_pow hN
  forward_ne_zero := one_ne_zero
  inverse_ne_zero := one_ne_zero
  dftSize_ne_zero := FftWrapper.ofSize_ne_zero hN
  forward_exact x k hk := by
    obtain ⟨f, hf, hvalues, -⟩ := h.forward x fun _ => ⟨0, 0⟩
    simp [hf, hvalues k hk, forwardScalingFactor]
  inverse_exact x X hX n hn := by
    obtain ⟨y, hy, hvalues, -⟩ := h.inverse x (fun k => ⟨(X k).re, (X k).im⟩) (fun _ => 0) hX
    simp [hy, hvalues n hn, inverseScalingFactor]

/-- The default wrapper of the factory, for even lengths. -/
noncomputable def defaultWrapper (M : ℕ) (hM : M ≠ 0) : FftWrapper ℝ ℂ (M * 2) :=
  fftWrapper (Nat.mul_ne_zero hM two_ne_zero) _
    (exact_realPlan hM (fun _ => ⟨0, 0⟩) fun _ => ⟨0, 0⟩)

end KissFftWrapper

end Visr
