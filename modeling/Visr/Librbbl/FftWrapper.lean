import Mathlib.Analysis.CStarAlgebra.Classes
import Mathlib.RingTheory.RootsOfUnity.Complex
import Visr.Library.Dft

/-!
# Wrappers for transform libraries

The interface to the libraries that compute the discrete Fourier transform of a real
signal.  A wrapper declares the factors by which its transforms differ from the unscaled
ones, and is exact otherwise.

## Main results

* `FftWrapper.inverse_forward` — the inverse of the forward transform.
-/

namespace Visr

open Dft

/-- A wrapper for real signals with samples in `R`.  Only the first half of the spectrum
is computed, since the other half is conjugate to it. -/
structure FftWrapper (R C : Type) [Field R] [CommRing C] [Algebra R C] (dftSize : ℕ) where
  rootOfUnity : C
  forwardScalingFactor : R
  inverseScalingFactor : R
  forwardTransform : (ℕ → R) → ℕ → C
  inverseTransform : (ℕ → C) → ℕ → R
  root_pow : rootOfUnity ^ dftSize = 1
  forward_ne_zero : forwardScalingFactor ≠ 0
  inverse_ne_zero : inverseScalingFactor ≠ 0
  dftSize_ne_zero : (dftSize : R) ≠ 0
  forward_exact : ∀ x k, k ≤ dftSize / 2 →
    forwardTransform x k =
      algebraMap R C forwardScalingFactor * spectrumOf C rootOfUnity dftSize x k
  inverse_exact : ∀ x X, (∀ k, k ≤ dftSize / 2 → X k = spectrumOf C rootOfUnity dftSize x k) →
    ∀ n < dftSize, inverseTransform X n = inverseScalingFactor * (dftSize * x n)

namespace FftWrapper

/-- Both transforms one after the other. -/
theorem inverse_forward {R C : Type} [Field R] [CommRing C] [Algebra R C] {dftSize : ℕ}
    (w : FftWrapper R C dftSize) (x : ℕ → R) {n : ℕ} (hn : n < dftSize) :
    w.inverseTransform (w.forwardTransform x) n =
      w.inverseScalingFactor * dftSize * w.forwardScalingFactor * x n := by
  have hspectrum : ∀ k, k ≤ dftSize / 2 → w.forwardTransform x k =
      spectrumOf C w.rootOfUnity dftSize (fun n => w.forwardScalingFactor * x n) k := by
    intro k hk
    rw [w.forward_exact x k hk, spectrumOf_mul_left]
  rw [w.inverse_exact _ _ hspectrum n hn, mul_assoc, mul_assoc]

/-! ### The ideal wrapper -/

open ComplexConjugate

/-- The root of unity of the forward transform, `exp (-2πi / N)`. -/
noncomputable def idealRoot (N : ℕ) : ℂ := (Complex.exp ((2 : ℕ) * Real.pi * Complex.I / N))⁻¹

theorem isPrimitiveRoot_idealRoot {N : ℕ} (hN : N ≠ 0) : IsPrimitiveRoot (idealRoot N) N :=
  (Complex.isPrimitiveRoot_exp N hN).inv

theorem idealRoot_pow {N : ℕ} (hN : N ≠ 0) : idealRoot N ^ N = 1 :=
  (isPrimitiveRoot_idealRoot hN).pow_eq_one

theorem ofSize_ne_zero {N : ℕ} (hN : N ≠ 0) : (N : ℝ) ≠ 0 := Nat.cast_ne_zero.mpr hN

/-- The spectrum of a real signal of length `N`, completed from its first half. -/
noncomputable def completed (N : ℕ) (X : ℕ → ℂ) (k : ℕ) : ℂ :=
  if k ≤ N / 2 then X k else conj (X (N - k))

theorem conj_idealRoot (N : ℕ) : conj (idealRoot N) = (idealRoot N)⁻¹ := by
  rw [idealRoot, map_inv₀, ← Complex.exp_conj, ← Complex.exp_neg]
  simp [neg_div, map_ofNat]

/-- The second half of the spectrum of a real signal is conjugate to the first. -/
theorem conj_spectrum {N k : ℕ} (hN : N ≠ 0) (hk : k ≤ N) (x : ℕ → ℝ) :
    conj (spectrumOf ℂ (idealRoot N) N x (N - k)) = spectrumOf ℂ (idealRoot N) N x k := by
  have hroot := isPrimitiveRoot_idealRoot hN
  unfold spectrumOf dft
  rw [map_sum]
  apply Finset.sum_congr rfl
  intro n _
  have hpow : idealRoot N ^ (n * (N - k)) * idealRoot N ^ (n * k) = 1 := by
    have hsum : n * (N - k) + n * k = N * n := by
      rw [← Nat.mul_add, Nat.sub_add_cancel hk, Nat.mul_comm]
    rw [← pow_add, hsum, pow_mul, hroot.pow_eq_one, one_pow]
  rw [map_mul, map_pow, conj_idealRoot, inv_pow, inv_eq_of_mul_eq_one_right hpow]
  congr 1
  exact Complex.conj_ofReal (x n)

theorem completed_spectrum {N : ℕ} (x : ℕ → ℝ) {X : ℕ → ℂ}
    (hX : ∀ k, k ≤ N / 2 → X k = spectrumOf ℂ (idealRoot N) N x k) {k : ℕ} (hk : k < N) :
    completed N X k = spectrumOf ℂ (idealRoot N) N x k := by
  unfold completed
  split
  next hle => exact hX k hle
  next hlt => rw [hX (N - k) (by omega), conj_spectrum (by omega) (by omega)]

/-- The transform of real signals of length `N` with given scaling factors. -/
noncomputable def ideal (N : ℕ) (hN : N ≠ 0) (fwdConst invConst : ℝ) (hfwd : fwdConst ≠ 0)
    (hinv : invConst ≠ 0) : FftWrapper ℝ ℂ N where
  rootOfUnity := idealRoot N
  forwardScalingFactor := fwdConst
  inverseScalingFactor := invConst
  forwardTransform x k := fwdConst * spectrumOf ℂ (idealRoot N) N x k
  inverseTransform X n := invConst * (dft (idealRoot N)⁻¹ N (completed N X) n).re
  root_pow := idealRoot_pow hN
  forward_ne_zero := hfwd
  inverse_ne_zero := hinv
  dftSize_ne_zero := ofSize_ne_zero hN
  forward_exact _ _ _ := rfl
  inverse_exact x X hX n hn := by
    have hroot := isPrimitiveRoot_idealRoot hN
    have hdft : dft (idealRoot N)⁻¹ N (completed N X) n = ((N * x n : ℝ) : ℂ) := by
      rw [dft_congr _ (fun k hk => completed_spectrum x hX hk) n, Complex.ofReal_mul]
      exact dft_inv_dft hroot (fun m => (x m : ℂ)) hn
    rw [hdft, Complex.ofReal_re]

/-- The ideal transform without factors. -/
noncomputable def unscaled (N : ℕ) (hN : N ≠ 0) : FftWrapper ℝ ℂ N :=
  ideal N hN 1 1 one_ne_zero one_ne_zero

end FftWrapper

end Visr
