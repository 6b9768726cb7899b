import Mathlib.Algebra.BigOperators.Ring.Finset
import Mathlib.Algebra.BigOperators.Intervals
import Mathlib.RingTheory.RootsOfUnity.PrimitiveRoots
import Visr.Library.Signal

/-!
# The discrete Fourier transform and block convolution

The transform is taken over any commutative ring, with respect to an element `ω` whose
`N`-th power is one.

## Main definitions

* `Dft.dft ω N x` — the transform of the first `N` samples of `x`, without scaling.
* `Dft.circular N h x` — the circular convolution of size `N`.
* `Dft.convolution h L x` — the direct convolution of a signal with a filter of length `L`.
* `Dft.spectrumOf C ω N x` — the transform in an algebra `C` over the ring of the samples.
* `Dft.frame x t B p`, `Dft.partition h B p` — the blocks that a partitioned convolution
  transforms.

## Main results

* `dft_circular` — **the convolution theorem**.
* `dft_inv_dft` — the inverse of the transform, for a primitive root.
* `sum_circular_partition` — **overlap-save**: the circular convolutions of all partitions
  of a filter with the frames belonging to them add up to the direct convolution.
-/

namespace Dft

open Finset
open Signal (past)

section Ring

variable {R : Type*} [CommRing R]

/-- The transform of size `N`, without scaling. -/
def dft (ω : R) (N : ℕ) (x : ℕ → R) (k : ℕ) : R := ∑ n ∈ range N, x n * ω ^ (n * k)

/-- The circular convolution of size `N`. -/
def circular (N : ℕ) (h x : ℕ → R) (n : ℕ) : R :=
  ∑ j ∈ range N, h j * x ((n + (N - j)) % N)

theorem dft_congr (ω : R) {N : ℕ} {x y : ℕ → R} (h : ∀ n < N, x n = y n) (k : ℕ) :
    dft ω N x k = dft ω N y k := by
  apply Finset.sum_congr rfl
  intro n hn
  rw [h n (Finset.mem_range.mp hn)]

@[simp] theorem dft_zero (ω : R) (N k : ℕ) : dft ω N (fun _ => 0) k = 0 := by
  simp [dft]

theorem dft_mul_left (ω : R) (N : ℕ) (c : R) (x : ℕ → R) (k : ℕ) :
    dft ω N (fun n => c * x n) k = c * dft ω N x k := by
  simp only [dft, Finset.mul_sum, mul_assoc]

theorem dft_add (ω : R) (N : ℕ) (x y : ℕ → R) (k : ℕ) :
    dft ω N (fun n => x n + y n) k = dft ω N x k + dft ω N y k := by
  simp only [dft, add_mul, Finset.sum_add_distrib]

theorem dft_sum {ι : Type*} (ω : R) (N : ℕ) (s : Finset ι) (x : ι → ℕ → R) (k : ℕ) :
    dft ω N (fun n => ∑ i ∈ s, x i n) k = ∑ i ∈ s, dft ω N (x i) k := by
  simp only [dft, Finset.sum_mul]
  exact Finset.sum_comm

theorem pow_mod {ω : R} {N : ℕ} (hω : ω ^ N = 1) (m k : ℕ) :
    ω ^ (m % N * k) = ω ^ (m * k) := by
  rw [pow_mul, ← pow_eq_pow_mod m hω, ← pow_mul]

/-- Delaying a block by `j` samples, with wrap-around, multiplies its transform by a power
of the root. -/
theorem dft_rotate {ω : R} {N : ℕ} (hω : ω ^ N = 1) (x : ℕ → R) {j : ℕ} (hj : j < N) (k : ℕ) :
    dft ω N (fun n => x ((n + (N - j)) % N)) k = ω ^ (j * k) * dft ω N x k := by
  have hN : 0 < N := by omega
  unfold dft
  rw [Finset.mul_sum]
  -- sample `n` of the delayed block is sample `n - j` of the original one
  refine Finset.sum_nbij' (fun n => (n + (N - j)) % N) (fun m => (m + j) % N) ?_ ?_ ?_ ?_ ?_
  · intro n _
    exact Finset.mem_range.mpr (Nat.mod_lt _ hN)
  · intro m _
    exact Finset.mem_range.mpr (Nat.mod_lt _ hN)
  · intro n hn
    have hn' := Finset.mem_range.mp hn
    have hsum : n + (N - j) + j = n + N := by omega
    rw [Nat.mod_add_mod, hsum, Nat.add_mod_right, Nat.mod_eq_of_lt hn']
  · intro m hm
    have hm' := Finset.mem_range.mp hm
    have hsum : m + j + (N - j) = m + N := by omega
    rw [Nat.mod_add_mod, hsum, Nat.add_mod_right, Nat.mod_eq_of_lt hm']
  · intro n _
    have hpow : ω ^ (j * k) * ω ^ ((n + (N - j)) % N * k) = ω ^ (n * k) := by
      have hsum : j * k + (n + (N - j)) * k = n * k + N * k := by
        rw [← Nat.add_mul, ← Nat.add_mul]
        congr 1
        omega
      rw [pow_mod hω, ← pow_add, hsum, pow_add, pow_mul ω N, hω, one_pow, mul_one]
    rw [← hpow]
    ring

/-- **The convolution theorem.** -/
theorem dft_circular {ω : R} {N : ℕ} (hω : ω ^ N = 1) (h x : ℕ → R) (k : ℕ) :
    dft ω N (circular N h x) k = dft ω N h k * dft ω N x k := by
  calc dft ω N (circular N h x) k
      = ∑ j ∈ range N, dft ω N (fun n => h j * x ((n + (N - j)) % N)) k :=
        dft_sum ω N (range N) (fun j n => h j * x ((n + (N - j)) % N)) k
    _ = ∑ j ∈ range N, h j * (ω ^ (j * k) * dft ω N x k) := by
        apply Finset.sum_congr rfl
        intro j hj
        rw [dft_mul_left, dft_rotate hω x (Finset.mem_range.mp hj)]
    _ = dft ω N h k * dft ω N x k := by
        simp only [dft, Finset.sum_mul, mul_assoc]

/-! ### Overlap-save -/

/-- The direct convolution of a signal with a filter of length `L`. -/
def convolution (h : ℕ → R) (L : ℕ) (x : ℕ → R) (n : ℕ) : R :=
  ∑ k ∈ range L, h k * past x n k

/-- The block of `2 * B` samples of `x` that partition `p` of a filter is convolved with at
time `t`: it ends `p` blocks before `t`. -/
def frame (x : ℕ → R) (t B p n : ℕ) : R := past x t (p * B + 2 * B - n)

/-- Partition `p` of a filter, filled up with zeros. -/
def partition (h : ℕ → R) (B p n : ℕ) : R := if n < B then h (p * B + n) else 0

@[simp] theorem frame_zero (x : ℕ → R) {B p n : ℕ} (hn : n < 2 * B) : frame x 0 B p n = 0 :=
  Signal.past_of_lt x (by omega)

/-- A block later, each frame belongs to the next partition. -/
theorem frame_succ (x : ℕ → R) (t B p : ℕ) {n : ℕ} (hn : n < 2 * B) :
    frame x (t + B) B (p + 1) n = frame x t B p n := by
  have hage : (p + 1) * B + 2 * B - n = p * B + 2 * B - n + B := by
    rw [Nat.add_mul]
    omega
  rw [frame, hage, Signal.past_add_add, frame]

/-- The wrap-around does not reach the upper half if the filter vanishes there. -/
theorem circular_upper_half {B : ℕ} (h x : ℕ → R) (hh : ∀ n, B ≤ n → h n = 0) {s : ℕ}
    (hs : s < B) : circular (2 * B) h x (B + s) = ∑ m ∈ range B, h m * x (B + s - m) := by
  unfold circular
  rw [Nat.two_mul, Finset.sum_range_add]
  have hhigh : ∑ j ∈ range B, h (B + j) * x ((B + s + (B + B - (B + j))) % (B + B)) = 0 := by
    apply Finset.sum_eq_zero
    intro j _
    rw [hh (B + j) (by omega), zero_mul]
  rw [hhigh, add_zero]
  apply Finset.sum_congr rfl
  intro m hm
  have hm' := Finset.mem_range.mp hm
  have hsum : B + s + (B + B - m) = B + s - m + (B + B) := by omega
  rw [hsum, Nat.add_mod_right, Nat.mod_eq_of_lt (by omega)]

/-- What one partition contributes to the output sample `s` of the block ending at `t`. -/
theorem circular_partition (h x : ℕ → R) (t p : ℕ) {B s : ℕ} (hs : s < B) :
    circular (2 * B) (partition h B p) (frame x t B p) (B + s) =
      ∑ m ∈ range B, h (p * B + m) * past x t (B - s + (p * B + m)) := by
  have hzero : ∀ n, B ≤ n → partition h B p n = 0 := fun n hn => if_neg (by omega)
  rw [circular_upper_half _ _ hzero hs]
  apply Finset.sum_congr rfl
  intro m hm
  have hm' := Finset.mem_range.mp hm
  have hage : p * B + 2 * B - (B + s - m) = B - s + (p * B + m) := by omega
  rw [partition, if_pos hm', frame, hage]

theorem sum_range_mul (P B : ℕ) (f : ℕ → R) :
    ∑ p ∈ range P, ∑ m ∈ range B, f (p * B + m) = ∑ k ∈ range (P * B), f k := by
  induction P with
  | zero => simp
  | succ P ih => rw [Finset.sum_range_succ, ih, Nat.succ_mul, Finset.sum_range_add]

/-- **Overlap-save.**  The circular convolutions of the partitions of a filter with the
frames belonging to them add up to the direct convolution with the whole filter. -/
theorem sum_circular_partition (h x : ℕ → R) (t P : ℕ) {B s : ℕ} (hs : s < B) :
    ∑ p ∈ range P, circular (2 * B) (partition h B p) (frame x (t + B) B p) (B + s) =
      convolution h (P * B) x (t + s) := by
  have hpast (k : ℕ) : past x (t + B) (B - s + k) = past x (t + s) k := by
    have ht : t + B = t + s + (B - s) := by omega
    rw [ht, Nat.add_comm (B - s) k, Signal.past_add_add]
  calc ∑ p ∈ range P, circular (2 * B) (partition h B p) (frame x (t + B) B p) (B + s)
      = ∑ p ∈ range P, ∑ m ∈ range B, h (p * B + m) * past x (t + s) (p * B + m) := by
        apply Finset.sum_congr rfl
        intro p _
        rw [circular_partition h x (t + B) p hs]
        simp only [hpast]
    _ = convolution h (P * B) x (t + s) :=
        sum_range_mul P B fun k => h k * past x (t + s) k

/-- Only the coefficients within the length of a filter matter. -/
theorem convolution_of_le (h x : ℕ → R) {L L' : ℕ} (hL : L ≤ L') (hh : ∀ k, L ≤ k → h k = 0)
    (n : ℕ) : convolution h L' x n = convolution h L x n := by
  symm
  apply Finset.sum_subset
  · exact Finset.range_subset_range.mpr hL
  · intro k _ hk
    rw [hh k (by simpa using hk), zero_mul]

theorem convolution_mul_left (c : R) (h x : ℕ → R) (L n : ℕ) :
    convolution (fun k => c * h k) L x n = c * convolution h L x n := by
  simp only [convolution, Finset.mul_sum, mul_assoc]

/-- The unit impulse yields the filter. -/
theorem convolution_impulse (h : ℕ → R) {L n : ℕ} (hn : n < L) :
    convolution h L (fun m => if m = 0 then 1 else 0) n = h n := by
  unfold convolution
  rw [Finset.sum_eq_single n]
  · simp [past]
  · intro k _ hk
    by_cases hle : k ≤ n
    · rw [Signal.past_of_le _ hle, if_neg (by omega), mul_zero]
    · rw [Signal.past_of_lt _ (by omega), mul_zero]
  · intro hmem
    exact absurd (Finset.mem_range.mpr hn) hmem

/-- Silence yields silence. -/
theorem convolution_silence (h : ℕ → R) (L n : ℕ) : convolution h L (fun _ => 0) n = 0 := by
  apply Finset.sum_eq_zero
  intro k _
  simp [past]

end Ring

/-! ### Signals over a smaller ring -/

section Algebra

variable {R : Type*} (C : Type*) [CommRing R] [CommRing C] [Algebra R C]

/-- The transform, in an algebra, of a signal over the base ring. -/
def spectrumOf (ω : C) (N : ℕ) (x : ℕ → R) (k : ℕ) : C :=
  dft ω N (fun n => algebraMap R C (x n)) k

variable {C}

theorem spectrumOf_congr (ω : C) {N : ℕ} {x y : ℕ → R} (h : ∀ n < N, x n = y n) (k : ℕ) :
    spectrumOf C ω N x k = spectrumOf C ω N y k := by
  apply dft_congr
  intro n hn
  rw [h n hn]

@[simp] theorem spectrumOf_zero (ω : C) (N k : ℕ) :
    spectrumOf C ω N (fun _ => (0 : R)) k = 0 := by
  simp [spectrumOf]

theorem spectrumOf_mul_left (ω : C) (N : ℕ) (c : R) (x : ℕ → R) (k : ℕ) :
    spectrumOf C ω N (fun n => c * x n) k = algebraMap R C c * spectrumOf C ω N x k := by
  simp only [spectrumOf, map_mul]
  exact dft_mul_left ω N _ _ k

theorem spectrumOf_add (ω : C) (N : ℕ) (x y : ℕ → R) (k : ℕ) :
    spectrumOf C ω N (fun n => x n + y n) k = spectrumOf C ω N x k + spectrumOf C ω N y k := by
  simp only [spectrumOf, map_add]
  exact dft_add ω N _ _ k

theorem spectrumOf_sum {ι : Type*} (ω : C) (N : ℕ) (s : Finset ι) (x : ι → ℕ → R) (k : ℕ) :
    spectrumOf C ω N (fun n => ∑ i ∈ s, x i n) k = ∑ i ∈ s, spectrumOf C ω N (x i) k := by
  simp only [spectrumOf, map_sum]
  exact dft_sum ω N s _ k

theorem spectrumOf_circular {ω : C} {N : ℕ} (hω : ω ^ N = 1) (h x : ℕ → R) (k : ℕ) :
    spectrumOf C ω N (circular N h x) k = spectrumOf C ω N h k * spectrumOf C ω N x k := by
  simp only [spectrumOf, circular, map_sum, map_mul]
  exact dft_circular hω (fun n => algebraMap R C (h n)) (fun n => algebraMap R C (x n)) k

end Algebra

/-! ### The inverse transform -/

section Field

variable {K : Type*} [Field K]

/-- The powers of a primitive root add up to zero. -/
theorem sum_pow_mul {ω : K} {N : ℕ} (hω : IsPrimitiveRoot ω N) {n m : ℕ} (hn : n < N)
    (hm : m < N) :
    ∑ k ∈ range N, ω ^ (m * k) * ω⁻¹ ^ (k * n) = if m = n then (N : K) else 0 := by
  have hω0 : ω ≠ 0 := hω.ne_zero (by omega)
  have hterm : ∀ k ∈ range N, ω ^ (m * k) * ω⁻¹ ^ (k * n) = (ω ^ m * ω⁻¹ ^ n) ^ k := by
    intro k _
    rw [mul_pow, ← pow_mul, ← pow_mul, Nat.mul_comm n k]
  rw [Finset.sum_congr rfl hterm]
  by_cases heq : m = n
  · subst heq
    have hone : ω ^ m * ω⁻¹ ^ m = 1 := by rw [← mul_pow, mul_inv_cancel₀ hω0, one_pow]
    rw [hone]
    simp
  · rw [if_neg heq]
    have hne : ω ^ m * ω⁻¹ ^ n ≠ 1 := by
      intro h
      apply heq
      apply hω.pow_inj hm hn
      rw [inv_pow, ← div_eq_mul_inv, div_eq_one_iff_eq (pow_ne_zero n hω0)] at h
      exact h
    have hpow : (ω ^ m * ω⁻¹ ^ n) ^ N = 1 := by
      rw [mul_pow, ← pow_mul, ← pow_mul, Nat.mul_comm m, Nat.mul_comm n, pow_mul, pow_mul,
        inv_pow, hω.pow_eq_one]
      simp
    have hgeom := mul_neg_geom_sum (ω ^ m * ω⁻¹ ^ n) N
    rw [hpow, sub_self] at hgeom
    exact (mul_eq_zero.mp hgeom).resolve_left (sub_ne_zero.mpr (Ne.symm hne))

theorem dft_inv_dft {ω : K} {N : ℕ} (hω : IsPrimitiveRoot ω N) (x : ℕ → K) {n : ℕ}
    (hn : n < N) : dft ω⁻¹ N (dft ω N x) n = N * x n := by
  calc dft ω⁻¹ N (dft ω N x) n
      = ∑ k ∈ range N, ∑ m ∈ range N, x m * (ω ^ (m * k) * ω⁻¹ ^ (k * n)) := by
        simp only [dft, Finset.sum_mul, mul_assoc]
    _ = ∑ m ∈ range N, x m * ∑ k ∈ range N, ω ^ (m * k) * ω⁻¹ ^ (k * n) := by
        rw [Finset.sum_comm]
        simp only [Finset.mul_sum]
    _ = ∑ m ∈ range N, x m * (if m = n then (N : K) else 0) := by
        apply Finset.sum_congr rfl
        intro m hm
        rw [sum_pow_mul hω hn (Finset.mem_range.mp hm)]
    _ = N * x n := by
        simp [hn, mul_comm]

end Field

end Dft
