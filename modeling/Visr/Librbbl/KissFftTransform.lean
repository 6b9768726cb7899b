import Visr.Librbbl.KissFft

/-!
# The transform of KissFFT

Each butterfly combines the results of shorter transforms in place, column by column.  With exact
arithmetic, the recursion over the factors computes the discrete Fourier transform.

## Main results

* `KissFft.kfBfly2_spec`, `KissFft.kfBfly3_spec`, `KissFft.kfBfly4_spec`,
  `KissFft.kfBfly5_spec`, `KissFft.kfBflyGeneric_spec` — the butterflies.
* `KissFft.kfWork_spec` — **the recursion computes the transform**.
* `KissFft.kissFft_spec` — the transform of complex signals.
-/

namespace Visr

namespace KissFft

open Complex Dft Function MixedRadix

/-! ### Complex numbers -/

def Cpx.toComplex (a : Cpx ℝ) : ℂ := ⟨a.r, a.i⟩

/-- The complex numbers in an array. -/
def view (Fout : ℕ → Cpx ℝ) (j : ℕ) : ℂ := (Fout j).toComplex

section Complex

variable (a b c : Cpx ℝ) (s t : ℝ)

@[simp] theorem Cpx.toComplex_add : (a + b).toComplex = a.toComplex + b.toComplex := rfl

@[simp] theorem Cpx.toComplex_sub : (a - b).toComplex = a.toComplex - b.toComplex := rfl

@[simp] theorem Cpx.toComplex_mul : (a * b).toComplex = a.toComplex * b.toComplex := rfl

/-- A rotation by a right angle is an exchange of the parts. -/
theorem Cpx.toComplex_rotate :
    (⟨a.r - b.i, a.i + b.r⟩ : Cpx ℝ).toComplex = a.toComplex + I * b.toComplex := by
  apply Complex.ext <;> simp [toComplex, sub_eq_add_neg]

theorem Cpx.toComplex_rotate_neg :
    (⟨a.r + b.i, a.i - b.r⟩ : Cpx ℝ).toComplex = a.toComplex - I * b.toComplex := by
  apply Complex.ext <;> simp [toComplex]

/-- The elements of a column of three. -/
theorem Cpx.toComplex_three :
    (⟨a.r - halfOf b.r - c.i, a.i - halfOf b.i + c.r⟩ : Cpx ℝ).toComplex =
      a.toComplex - b.toComplex * (1 / 2) + I * c.toComplex := by
  have hhalf : ((1 / 2 : ℝ) : ℂ) = 1 / 2 := by norm_num
  rw [← hhalf]
  apply Complex.ext
  · simp [toComplex, halfOf]
    ring
  · simp [toComplex, halfOf]

theorem Cpx.toComplex_three_neg :
    (⟨a.r - halfOf b.r + c.i, a.i - halfOf b.i - c.r⟩ : Cpx ℝ).toComplex =
      a.toComplex - b.toComplex * (1 / 2) - I * c.toComplex := by
  have hhalf : ((1 / 2 : ℝ) : ℂ) = 1 / 2 := by norm_num
  rw [← hhalf]
  apply Complex.ext <;> simp [toComplex, halfOf]

@[simp] theorem Cpx.toComplex_mulByScalar :
    (a.mulByScalar s).toComplex = a.toComplex * s := by
  apply Complex.ext <;> simp [toComplex, mulByScalar]

/-- The first element of a column of five. -/
theorem Cpx.toComplex_sum :
    (⟨a.r + (b.r + c.r), a.i + (b.i + c.i)⟩ : Cpx ℝ).toComplex =
      a.toComplex + (b.toComplex + c.toComplex) := rfl

/-- The even part of a column of five. -/
theorem Cpx.toComplex_even :
    (⟨a.r + b.r * s + c.r * t, a.i + b.i * s + c.i * t⟩ : Cpx ℝ).toComplex =
      a.toComplex + b.toComplex * s + c.toComplex * t := by
  apply Complex.ext <;> simp [toComplex]

/-- The odd part of a column of five. -/
theorem Cpx.toComplex_odd :
    (⟨a.i * s + b.i * t, -(a.r * s) - b.r * t⟩ : Cpx ℝ).toComplex =
      -I * (a.toComplex * s + b.toComplex * t) := by
  apply Complex.ext
  · simp [toComplex]
  · simp [toComplex]
    ring

theorem Cpx.toComplex_odd_neg :
    (⟨-(a.i * s) + b.i * t, a.r * s - b.r * t⟩ : Cpx ℝ).toComplex =
      I * (a.toComplex * s - b.toComplex * t) := by
  apply Complex.ext
  · simp [toComplex]
    ring
  · simp [toComplex]

end Complex

/-! ### The roots of unity -/

/-- The root of unity of the transforms of length `n`. -/
noncomputable def rootOf (inverse : Bool) (n : ℕ) : ℂ :=
  if inverse then (FftWrapper.idealRoot n)⁻¹ else FftWrapper.idealRoot n

theorem rootOf_mul_pow (inverse : Bool) {n m : ℕ} (hm : m ≠ 0) :
    rootOf inverse (n * m) ^ m = rootOf inverse n := by
  have hm' : (m : ℂ) ≠ 0 := Nat.cast_ne_zero.mpr hm
  have hideal : FftWrapper.idealRoot (n * m) ^ m = FftWrapper.idealRoot n := by
    unfold FftWrapper.idealRoot
    rw [inv_pow, ← Complex.exp_nat_mul]
    congr 2
    push_cast
    rw [mul_div_assoc', mul_comm (m : ℂ) _, mul_div_mul_right _ _ hm']
  cases inverse with
  | true => simp only [rootOf, if_true, inv_pow, hideal]
  | false => simp only [rootOf, Bool.false_eq_true, if_false, hideal]

theorem isPrimitiveRoot_rootOf (inverse : Bool) {n : ℕ} (hn : n ≠ 0) :
    IsPrimitiveRoot (rootOf inverse n) n := by
  have hideal := FftWrapper.isPrimitiveRoot_idealRoot hn
  cases inverse with
  | true => exact hideal.inv
  | false => exact hideal

theorem conj_rootOf (inverse : Bool) (n : ℕ) :
    starRingEnd ℂ (rootOf inverse n) = (rootOf inverse n)⁻¹ := by
  cases inverse with
  | true => simp only [rootOf, if_true, map_inv₀, FftWrapper.conj_idealRoot]
  | false => exact FftWrapper.conj_idealRoot n

/-- The last power of a root of unity is its conjugate. -/
theorem rootOf_pow_pred (inverse : Bool) (n : ℕ) :
    rootOf inverse (n + 1) ^ n = starRingEnd ℂ (rootOf inverse (n + 1)) := by
  have hroot := isPrimitiveRoot_rootOf inverse n.succ_ne_zero
  have hmul : rootOf inverse (n + 1) * rootOf inverse (n + 1) ^ n = 1 := by
    rw [← pow_succ', hroot.pow_eq_one]
  rw [conj_rootOf]
  exact eq_inv_of_mul_eq_one_right hmul

theorem rootOf_three_re (inverse : Bool) : (rootOf inverse 3).re = -(1 / 2) := by
  have hroot := isPrimitiveRoot_rootOf inverse three_ne_zero
  have hsum := hroot.geom_sum_eq_zero (by decide)
  simp only [Finset.sum_range_succ, Finset.sum_range_zero, pow_zero, pow_one, zero_add,
    rootOf_pow_pred inverse 2] at hsum
  have hre := congrArg Complex.re hsum
  simp only [Complex.add_re, Complex.one_re, Complex.conj_re, Complex.zero_re] at hre
  linarith

theorem rootOf_two (inverse : Bool) : rootOf inverse 2 = -1 :=
  (isPrimitiveRoot_rootOf inverse two_ne_zero).eq_neg_one_of_two_right

theorem rootOf_four (inverse : Bool) : rootOf inverse 4 = if inverse then I else -I := by
  have hexp : Complex.exp ((2 : ℕ) * Real.pi * I / (4 : ℕ)) = I := by
    have hangle : (2 : ℕ) * Real.pi * I / (4 : ℕ) = Real.pi / 2 * I := by
      push_cast
      ring
    rw [hangle, Complex.exp_pi_div_two_mul_I]
  have hideal : FftWrapper.idealRoot 4 = -I := by
    rw [FftWrapper.idealRoot, hexp, Complex.inv_I]
  cases inverse with
  | true => simp [rootOf, hideal]
  | false => simp [rootOf, hideal]

/-! ### The stages -/

/-- A stage of the recursion, in which transforms of length `m` are combined to those of length
`p * m`. -/
structure Stage (st : State ℝ) (fstride p m : ℕ) : Prop where
  length : fstride * (p * m) = st.nfft
  stride_pos : 0 < fstride
  length_pos : 0 < m
  twiddles : ∀ j < st.nfft, (st.twiddles j).toComplex = rootOf st.inverse st.nfft ^ j

section Stage

variable {st : State ℝ} {fstride p m : ℕ}

/-- The root of unity of the combined transforms. -/
noncomputable def stageRoot (st : State ℝ) (fstride : ℕ) : ℂ :=
  rootOf st.inverse st.nfft ^ fstride

theorem Stage.twiddle (h : Stage st fstride p m) {j r k : ℕ} (hj : j = fstride * (r * k))
    (hr : r < p) (hk : k < m) : (st.twiddles j).toComplex = stageRoot st fstride ^ (r * k) := by
  have hlt : j < st.nfft := by
    rw [← h.length, hj]
    exact Nat.mul_lt_mul_of_pos_left (Nat.mul_lt_mul'' hr hk) h.stride_pos
  rw [h.twiddles _ hlt, stageRoot, hj, pow_mul]

/-- Column `k` of an array. -/
def column (Fout : ℕ → Cpx ℝ) (offset m k r : ℕ) : ℂ := view Fout (offset + k + r * m)

/-- The product of an element and its twiddle factor. -/
theorem Stage.scratch (h : Stage st fstride p m) (Fout : ℕ → Cpx ℝ) (offset : ℕ) {i j r k : ℕ}
    (hi : i = offset + k + r * m) (hj : j = fstride * (r * k)) (hr : r < p) (hk : k < m) :
    (Fout i).toComplex * (st.twiddles j).toComplex =
      twisted (stageRoot st fstride) (column Fout offset m k) k r := by
  rw [h.twiddle hj hr hk, hi]
  rfl

/-- The root of unity of the columns. -/
theorem Stage.root_pow (h : Stage st fstride p m) :
    stageRoot st fstride ^ m = rootOf st.inverse p := by
  have hlength : st.nfft = p * (fstride * m) := by
    rw [← h.length]
    ring
  have hne : fstride * m ≠ 0 := (Nat.mul_pos h.stride_pos h.length_pos).ne'
  rw [stageRoot, ← pow_mul, hlength, rootOf_mul_pow st.inverse hne]

theorem Stage.root_pow_mul (h : Stage st fstride p m) (hp : p ≠ 0) :
    stageRoot st fstride ^ (p * m) = 1 := by
  rw [Nat.mul_comm, pow_mul, h.root_pow]
  exact (isPrimitiveRoot_rootOf st.inverse hp).pow_eq_one

/-- The twiddle factors of the columns. -/
theorem Stage.twiddle_column (h : Stage st fstride p m) {j r : ℕ} (hj : j = fstride * (r * m))
    (hr : r < p) : (st.twiddles j).toComplex = rootOf st.inverse p ^ r := by
  have hlt : j < st.nfft := by
    rw [← h.length, hj]
    exact Nat.mul_lt_mul_of_pos_left (Nat.mul_lt_mul_of_pos_right hr h.length_pos) h.stride_pos
  rw [h.twiddles _ hlt, hj, ← h.root_pow, stageRoot, ← pow_mul, ← pow_mul]
  congr 1
  ring

/-- What a butterfly computes. -/
def Butterfly (offset fstride : ℕ) (st : State ℝ) (m p : ℕ) (Fout Fout' : ℕ → Cpx ℝ) : Prop :=
  Columns m p offset (fun u F q => combine (stageRoot st fstride) m p F u q) (view Fout)
    (view Fout')

theorem view_update (Fout : ℕ → Cpx ℝ) (j : ℕ) (x : Cpx ℝ) :
    view (update Fout j x) = update (view Fout) j x.toComplex := by
  funext k
  by_cases hk : k = j
  · simp [view, hk]
  · simp [view, update_of_ne hk]

/-- The roots of unity of the columns. -/
theorem Stage.combine (h : Stage st fstride p m) (F : ℕ → ℂ) (u q : ℕ) :
    combine (stageRoot st fstride) m p F u q = ∑ r ∈ Finset.range p,
      twisted (stageRoot st fstride) F u r * rootOf st.inverse p ^ (r * q % p) := by
  have hp : p ≠ 0 ∨ p = 0 := ne_or_eq p 0
  rcases hp with hp | rfl
  · rw [← h.root_pow]
    refine combine_mod ?_ F u q
    rw [h.root_pow, (isPrimitiveRoot_rootOf st.inverse hp).pow_eq_one]
  · rfl

/-- The element in front needs no twiddle factor. -/
theorem twisted_zero (ω : ℂ) (F : ℕ → ℂ) (u : ℕ) : twisted ω F u 0 = F 0 := by
  simp [twisted]

theorem kfBfly2_spec (h : Stage st fstride 2 m) (offset : ℕ) (Fout : ℕ → Cpx ℝ) :
    Butterfly offset fstride st m 2 Fout (kfBfly2 offset fstride st m Fout) := by
  have hm := h.length_pos
  refine columns_foldl (fun Fout k hk => ?_) Fout
  have h0 : (Fout (offset + k)).toComplex = column Fout offset m k 0 := by simp [column, view]
  have h1 : (Fout (offset + k + m)).toComplex * (st.twiddles (k * fstride)).toComplex =
      twisted (stageRoot st fstride) (column Fout offset m k) k 1 :=
    h.scratch Fout offset (by ring) (by ring) (by decide) hk
  have hcombine := h.combine (column Fout offset m k) k
  simp only [Finset.sum_range_succ, Finset.sum_range_zero, rootOf_two, twisted_zero, zero_mul,
    one_mul, zero_add, pow_zero, mul_one, Nat.zero_mod] at hcombine
  simp only [UpdatesColumn, view_update, Cpx.toComplex_add, Cpx.toComplex_sub,
    Cpx.toComplex_mul]
  refine ⟨fun q hq => ?_, fun j hj => ?_⟩
  · show _ = MixedRadix.combine _ _ _ (column Fout offset m k) k q
    rw [hcombine]
    interval_cases q
    · simp (disch := omega) only [zero_mul, add_zero, update_self, update_of_ne, h0, h1]
      simp
    · simp (disch := omega) only [one_mul, update_self, update_of_ne, h0, h1]
      simp [sub_eq_add_neg]
  · have hj0 : j ≠ offset + k := by simpa using hj 0
    have hj1 : j ≠ offset + k + m := by simpa using hj 1
    simp only [update_of_ne hj0, update_of_ne hj1]

theorem kfBfly4_spec (h : Stage st fstride 4 m) (offset : ℕ) (Fout : ℕ → Cpx ℝ) :
    Butterfly offset fstride st m 4 Fout (kfBfly4 offset fstride st m Fout) := by
  have hm := h.length_pos
  refine columns_foldl (fun Fout k hk => ?_) Fout
  have h0 : (Fout (offset + k)).toComplex = column Fout offset m k 0 := by simp [column, view]
  have h1 : (Fout (offset + k + m)).toComplex * (st.twiddles (k * fstride)).toComplex =
      twisted (stageRoot st fstride) (column Fout offset m k) k 1 :=
    h.scratch Fout offset (by ring) (by ring) (by decide) hk
  have h2 : (Fout (offset + k + 2 * m)).toComplex * (st.twiddles (k * (fstride * 2))).toComplex =
      twisted (stageRoot st fstride) (column Fout offset m k) k 2 :=
    h.scratch Fout offset (by ring) (by ring) (by decide) hk
  have h3 : (Fout (offset + k + 3 * m)).toComplex * (st.twiddles (k * (fstride * 3))).toComplex =
      twisted (stageRoot st fstride) (column Fout offset m k) k 3 :=
    h.scratch Fout offset (by ring) (by ring) (by decide) hk
  have hcombine := h.combine (column Fout offset m k) k
  simp only [Finset.sum_range_succ, Finset.sum_range_zero, rootOf_four, twisted_zero, zero_mul,
    one_mul, zero_add, pow_zero, mul_one, Nat.zero_mod] at hcombine
  refine ⟨fun q hq => ?_, fun j hj => ?_⟩
  · show _ = MixedRadix.combine _ _ _ (column Fout offset m k) k q
    rw [hcombine]
    cases hinverse : st.inverse <;> interval_cases q <;>
      simp (disch := omega) only [if_true, if_false, Bool.false_eq_true, view_update,
        zero_mul, one_mul, add_zero, update_self, update_of_ne, Cpx.toComplex_rotate,
        Cpx.toComplex_rotate_neg, Cpx.toComplex_add, Cpx.toComplex_sub, Cpx.toComplex_mul,
        h0, h1, h2, h3] <;>
      simp [pow_succ] <;> ring
  · have hj0 : j ≠ offset + k := by simpa using hj 0
    have hj1 : j ≠ offset + k + m := by simpa using hj 1
    have hj2 : j ≠ offset + k + 2 * m := hj 2 (by decide)
    have hj3 : j ≠ offset + k + 3 * m := hj 3 (by decide)
    split <;>
      simp only [view_update, update_of_ne hj0, update_of_ne hj1, update_of_ne hj2, update_of_ne hj3]

theorem kfBfly3_spec (h : Stage st fstride 3 m) (offset : ℕ) (Fout : ℕ → Cpx ℝ) :
    Butterfly offset fstride st m 3 Fout (kfBfly3 offset fstride st m Fout) := by
  have hm := h.length_pos
  have hepi : (st.twiddles (fstride * m)).toComplex = rootOf st.inverse 3 ^ 1 :=
    h.twiddle_column (by ring) (by decide)
  have hepi' : (st.twiddles (fstride * m)).i = (rootOf st.inverse 3).im := by
    rw [pow_one] at hepi
    exact congrArg Complex.im hepi
  have hroot : rootOf st.inverse 3 = -(1 / 2) + (rootOf st.inverse 3).im * I := by
    apply Complex.ext
    · simp [rootOf_three_re]
    · simp
  have hconj : rootOf st.inverse 3 ^ 2 = -(1 / 2) - (rootOf st.inverse 3).im * I := by
    rw [rootOf_pow_pred st.inverse 2]
    apply Complex.ext
    · simp [rootOf_three_re]
    · simp
  refine columns_foldl (fun Fout k hk => ?_) Fout
  have h0 : (Fout (offset + k)).toComplex = column Fout offset m k 0 := by simp [column, view]
  have h1 : (Fout (offset + k + m)).toComplex * (st.twiddles (k * fstride)).toComplex =
      twisted (stageRoot st fstride) (column Fout offset m k) k 1 :=
    h.scratch Fout offset (by ring) (by ring) (by decide) hk
  have h2 : (Fout (offset + k + 2 * m)).toComplex * (st.twiddles (k * (fstride * 2))).toComplex =
      twisted (stageRoot st fstride) (column Fout offset m k) k 2 :=
    h.scratch Fout offset (by ring) (by ring) (by decide) hk
  have hcombine := h.combine (column Fout offset m k) k
  simp only [Finset.sum_range_succ, Finset.sum_range_zero, twisted_zero, zero_mul,
    one_mul, zero_add, pow_zero, mul_one, Nat.zero_mod] at hcombine
  refine ⟨fun q hq => ?_, fun j hj => ?_⟩
  · show _ = MixedRadix.combine _ _ _ (column Fout offset m k) k q
    rw [hcombine]
    interval_cases q
    · simp (disch := omega) only [view_update, zero_mul, add_zero, update_self, update_of_ne,
        Cpx.toComplex_add, Cpx.toComplex_mul, h0, h1, h2]
      simp
      ring
    · simp (disch := omega) only [view_update, one_mul, update_self, update_of_ne,
        Cpx.toComplex_three, Cpx.toComplex_mulByScalar, Cpx.toComplex_add, Cpx.toComplex_sub,
        Cpx.toComplex_mul, h0, h1, h2, hepi']
      norm_num [hconj]
      linear_combination (-twisted (stageRoot st fstride) (column Fout offset m k) k 1) * hroot
    · simp (disch := omega) only [view_update, update_self, update_of_ne,
        Cpx.toComplex_three_neg, Cpx.toComplex_mulByScalar, Cpx.toComplex_add,
        Cpx.toComplex_sub, Cpx.toComplex_mul, h0, h1, h2, hepi']
      norm_num [hconj]
      linear_combination (-twisted (stageRoot st fstride) (column Fout offset m k) k 2) * hroot
  · have hj0 : j ≠ offset + k := by simpa using hj 0
    have hj1 : j ≠ offset + k + m := by simpa using hj 1
    have hj2 : j ≠ offset + k + 2 * m := hj 2 (by decide)
    simp only [view_update, update_of_ne hj0, update_of_ne hj1, update_of_ne hj2]

/-- The other powers of a fifth root of unity are conjugate to the first two. -/
theorem rootOf_five_pow_three (inverse : Bool) :
    rootOf inverse 5 ^ 3 = starRingEnd ℂ (rootOf inverse 5 ^ 2) := by
  have hroot := (isPrimitiveRoot_rootOf inverse (by decide : 5 ≠ 0)).pow_eq_one
  rw [map_pow, ← rootOf_pow_pred inverse 4, ← pow_mul, pow_eq_pow_mod (4 * 2) hroot]

theorem kfBfly5_spec (h : Stage st fstride 5 m) (offset : ℕ) (Fout : ℕ → Cpx ℝ) :
    Butterfly offset fstride st m 5 Fout (kfBfly5 offset fstride st m Fout) := by
  have hm := h.length_pos
  have hya : (st.twiddles (fstride * m)).toComplex = rootOf st.inverse 5 ^ 1 :=
    h.twiddle_column (by ring) (by decide)
  have hyb : (st.twiddles (fstride * 2 * m)).toComplex = rootOf st.inverse 5 ^ 2 :=
    h.twiddle_column (by ring) (by decide)
  -- the parts of the first two powers are known from the table
  obtain ⟨ya, hya'⟩ : ∃ ya, st.twiddles (fstride * m) = ya := ⟨_, rfl⟩
  obtain ⟨yb, hyb'⟩ : ∃ yb, st.twiddles (fstride * 2 * m) = yb := ⟨_, rfl⟩
  rw [hya'] at hya
  rw [hyb'] at hyb
  have hroot1 : rootOf st.inverse 5 ^ 1 = ya.r + ya.i * I := by
    rw [← hya]
    exact (Complex.re_add_im _).symm
  have hroot2 : rootOf st.inverse 5 ^ 2 = yb.r + yb.i * I := by
    rw [← hyb]
    exact (Complex.re_add_im _).symm
  have hroot3 : rootOf st.inverse 5 ^ 3 = yb.r - yb.i * I := by
    rw [rootOf_five_pow_three, hroot2]
    simp [sub_eq_add_neg]
  have hroot4 : rootOf st.inverse 5 ^ 4 = ya.r - ya.i * I := by
    rw [rootOf_pow_pred st.inverse 4, ← pow_one (rootOf st.inverse (4 + 1)), hroot1]
    simp [sub_eq_add_neg]
  refine columns_foldl (fun Fout k hk => ?_) Fout
  have h0 : (Fout (offset + k)).toComplex = column Fout offset m k 0 := by simp [column, view]
  have h1 : (Fout (offset + k + m)).toComplex * (st.twiddles (k * fstride)).toComplex =
      twisted (stageRoot st fstride) (column Fout offset m k) k 1 :=
    h.scratch Fout offset (by ring) (by ring) (by decide) hk
  have h2 : (Fout (offset + k + 2 * m)).toComplex * (st.twiddles (2 * k * fstride)).toComplex =
      twisted (stageRoot st fstride) (column Fout offset m k) k 2 :=
    h.scratch Fout offset (by ring) (by ring) (by decide) hk
  have h3 : (Fout (offset + k + 3 * m)).toComplex * (st.twiddles (3 * k * fstride)).toComplex =
      twisted (stageRoot st fstride) (column Fout offset m k) k 3 :=
    h.scratch Fout offset (by ring) (by ring) (by decide) hk
  have h4 : (Fout (offset + k + 4 * m)).toComplex * (st.twiddles (4 * k * fstride)).toComplex =
      twisted (stageRoot st fstride) (column Fout offset m k) k 4 :=
    h.scratch Fout offset (by ring) (by ring) (by decide) hk
  have hcombine := h.combine (column Fout offset m k) k
  simp only [Finset.sum_range_succ, Finset.sum_range_zero, twisted_zero, zero_mul,
    one_mul, zero_add, pow_zero, mul_one, Nat.zero_mod] at hcombine
  refine ⟨fun q hq => ?_, fun j hj => ?_⟩
  · show _ = MixedRadix.combine _ _ _ (column Fout offset m k) k q
    rw [hcombine]
    simp only [view_update, hya', hyb', Cpx.toComplex_sum, Cpx.toComplex_even, Cpx.toComplex_odd,
      Cpx.toComplex_odd_neg, Cpx.toComplex_add, Cpx.toComplex_sub, Cpx.toComplex_mul, h0, h1, h2,
      h3, h4]
    interval_cases q
    · simp (disch := omega) only [zero_mul, add_zero, update_self, update_of_ne]
      simp
      ring
    · simp (disch := omega) only [one_mul, update_self, update_of_ne]
      simp only [Nat.reduceMod, Nat.reduceMul, hroot1, hroot2, hroot3, hroot4]
      ring
    · simp (disch := omega) only [update_self, update_of_ne]
      simp only [Nat.reduceMod, Nat.reduceMul, hroot1, hroot2, hroot3, hroot4]
      ring
    · simp only [update_self, Nat.reduceMod, Nat.reduceMul, hroot1, hroot2, hroot3, hroot4]
      ring
    · simp (disch := omega) only [update_self, update_of_ne]
      simp only [Nat.reduceMod, Nat.reduceMul, hroot1, hroot2, hroot3, hroot4]
      ring
  · have hj0 : j ≠ offset + k := by simpa using hj 0
    have hj1 : j ≠ offset + k + m := by simpa using hj 1
    have hj2 : j ≠ offset + k + 2 * m := hj 2 (by decide)
    have hj3 : j ≠ offset + k + 3 * m := hj 3 (by decide)
    have hj4 : j ≠ offset + k + 4 * m := hj 4 (by decide)
    simp only [view_update, update_of_ne hj0, update_of_ne hj1, update_of_ne hj2,
      update_of_ne hj3, update_of_ne hj4]

/-- A reduction by a subtraction. -/
theorem wrap_eq_mod {a b n : ℕ} (ha : a < n) (hb : b < n) :
    (if a + b ≥ n then a + b - n else a + b) = (a + b) % n := by
  split
  next hge =>
    rw [Nat.mod_eq_sub_mod hge]
    exact (Nat.mod_eq_of_lt (by omega)).symm
  next hlt => exact (Nat.mod_eq_of_lt (by omega)).symm

/-- One sum of the generic butterfly, whose index into the table never exceeds its length. -/
theorem genericSum_spec (h : Stage st fstride p m) (scratch : ℕ → Cpx ℝ) (offset : ℕ) {k : ℕ}
    (hk : k < p * m) (n : ℕ) (Fout : ℕ → Cpx ℝ) :
    ∃ x, genericSum fstride st scratch offset k n Fout =
        (fstride * k * n % st.nfft, update Fout (offset + k) x) ∧
      x.toComplex = (scratch 0).toComplex + ∑ q ∈ Finset.range n,
        (scratch (q + 1)).toComplex * stageRoot st fstride ^ ((q + 1) * k) := by
  have hlt : fstride * k < st.nfft := by
    rw [← h.length]
    exact Nat.mul_lt_mul_of_pos_left hk h.stride_pos
  have hpos : 0 < st.nfft := Nat.zero_lt_of_lt hlt
  induction n with
  | zero => exact ⟨scratch 0, by simp [genericSum], by simp⟩
  | succ n ih =>
    obtain ⟨x, hloop, hx⟩ := ih
    have htwidx : (if fstride * k * n % st.nfft + fstride * k ≥ st.nfft
        then fstride * k * n % st.nfft + fstride * k - st.nfft
        else fstride * k * n % st.nfft + fstride * k) = fstride * k * (n + 1) % st.nfft := by
      rw [wrap_eq_mod (Nat.mod_lt _ hpos) hlt, Nat.mod_add_mod, Nat.mul_succ]
    have htwiddle : (st.twiddles (fstride * k * (n + 1) % st.nfft)).toComplex =
        stageRoot st fstride ^ ((n + 1) * k) := by
      have hroot := (isPrimitiveRoot_rootOf st.inverse hpos.ne').pow_eq_one
      rw [h.twiddles _ (Nat.mod_lt _ hpos), ← pow_eq_pow_mod _ hroot, stageRoot, ← pow_mul]
      congr 1
      ring
    refine ⟨x + scratch (n + 1) * st.twiddles (fstride * k * (n + 1) % st.nfft), ?_, ?_⟩
    · rw [genericSum, List.range_succ, List.foldl_append, List.foldl_cons, List.foldl_nil]
      show addSummand fstride st scratch offset k (genericSum fstride st scratch offset k n Fout)
        (n + 1) = _
      simp only [hloop, addSummand, htwidx, update_self, update_idem]
    · rw [Finset.sum_range_succ, ← add_assoc, ← hx, Cpx.toComplex_add, Cpx.toComplex_mul,
        htwiddle]

theorem kfBflyGeneric_spec (h : Stage st fstride p m) (hp : 0 < p) (offset : ℕ)
    (Fout : ℕ → Cpx ℝ) :
    Butterfly offset fstride st m p Fout (kfBflyGeneric offset fstride st m p Fout) := by
  refine columns_foldl (fun Fout u hu => ?_) Fout
  have hrun : ∀ n ≤ p,
      (∀ q < n, view ((List.range n).foldl (fun Fout' q1 => (genericSum fstride st
          (fun q1 => Fout (offset + (u + q1 * m))) offset (u + q1 * m) (p - 1) Fout').2) Fout)
          (offset + u + q * m) =
        MixedRadix.combine (stageRoot st fstride) m p
          (fun r => view Fout (offset + u + r * m)) u q) ∧
      ∀ j, (∀ q < n, j ≠ offset + u + q * m) →
        view ((List.range n).foldl (fun Fout' q1 => (genericSum fstride st
          (fun q1 => Fout (offset + (u + q1 * m))) offset (u + q1 * m) (p - 1) Fout').2) Fout) j =
          view Fout j := by
    intro n hn
    induction n with
    | zero => exact ⟨fun q hq => absurd hq (Nat.not_lt_zero q), fun _ _ => rfl⟩
    | succ n ih =>
      obtain ⟨hdone, hother⟩ := ih (by omega)
      have hk : u + n * m < p * m := by
        have hle : (n + 1) * m ≤ p * m := Nat.mul_le_mul_right m hn
        rw [Nat.succ_mul] at hle
        omega
      rw [List.range_succ, List.foldl_append, List.foldl_cons, List.foldl_nil]
      generalize (List.range n).foldl _ Fout = Fout' at hdone hother ⊢
      obtain ⟨x, hsum, hx⟩ := genericSum_spec h (fun q1 => Fout (offset + (u + q1 * m))) offset hk
        (p - 1) Fout'
      rw [hsum, view_update, ← Nat.add_assoc]
      refine ⟨fun q hq => ?_, fun j hj => ?_⟩
      · rcases Nat.lt_succ_iff_lt_or_eq.mp hq with hlt | rfl
        · have hne : offset + u + q * m ≠ offset + u + n * m := by
            have hlt' := Nat.mul_lt_mul_of_pos_right hlt h.length_pos
            omega
          rw [update_of_ne hne, hdone q hlt]
        · rw [update_self, hx, MixedRadix.combine]
          obtain ⟨p, rfl⟩ := Nat.exists_eq_succ_of_ne_zero hp.ne'
          rw [Finset.sum_range_succ']
          simp [view, Nat.add_assoc, add_comm]
      · rw [update_of_ne (hj n (Nat.lt_succ_self n))]
        exact hother j fun q hq => hj q (by omega)
  exact hrun p (Nat.le_refl p)

theorem butterflies_spec (h : Stage st fstride p m) (hp : 0 < p) (offset : ℕ)
    (Fout : ℕ → Cpx ℝ) :
    Butterfly offset fstride st m p Fout (butterflies offset fstride st m p Fout) := by
  unfold butterflies
  split
  · exact kfBfly2_spec h offset Fout
  · exact kfBfly3_spec h offset Fout
  · exact kfBfly4_spec h offset Fout
  · exact kfBfly5_spec h offset Fout
  · exact kfBflyGeneric_spec h hp offset Fout

/-! ### The recursion -/

/-- **The recursion computes the transform** of the samples at a stride, and writes nothing
else. -/
theorem kfWork_spec
    (htwiddles : ∀ j < st.nfft, (st.twiddles j).toComplex = rootOf st.inverse st.nfft ^ j)
    (f : ℕ → Cpx ℝ) (inStride : ℕ) {factors : List (ℕ × ℕ)} {n offset i fstride : ℕ}
    (hfactors : Factors n factors) (hlength : fstride * n = st.nfft) (hstride : 0 < fstride)
    (Fout : ℕ → Cpx ℝ) :
    (∀ k < n, view (kfWork st f inStride factors offset i fstride Fout) (offset + k) =
      dft (stageRoot st fstride) n (fun t => view f (i + t * (fstride * inStride))) k) ∧
    ∀ j, j < offset ∨ offset + n ≤ j →
      view (kfWork st f inStride factors offset i fstride Fout) j = view Fout j := by
  induction factors generalizing n offset i fstride Fout with
  | nil => exact absurd hfactors id
  | cons factor factors ih =>
    obtain ⟨p, m⟩ := factor
    obtain ⟨hp, rfl, hrest⟩ := hfactors
    have hm : 0 < m := by omega
    have hstage : Stage st fstride p m := ⟨hlength, hstride, hm, htwiddles⟩
    have hroot := hstage.root_pow_mul hp.ne'
    -- the transforms of the decimated signals
    have hiteration : ∀ (Fout : ℕ → Cpx ℝ), ∀ q < p,
        (∀ u < m, view (if m = 1 then update Fout (offset + q) (f (i + q * (fstride * inStride)))
            else kfWork st f inStride factors (offset + q * m) (i + q * (fstride * inStride))
              (fstride * p) Fout) (offset + q * m + u) =
          dft (stageRoot st fstride ^ p) m
            (fun t => view f (i + (t * p + q) * (fstride * inStride))) u) ∧
        ∀ j, j < offset + q * m ∨ offset + q * m + m ≤ j →
          view (if m = 1 then update Fout (offset + q) (f (i + q * (fstride * inStride)))
            else kfWork st f inStride factors (offset + q * m) (i + q * (fstride * inStride))
              (fstride * p) Fout) j = view Fout j := by
      intro Fout q _
      rcases hrest with ⟨rfl, -⟩ | ⟨hlt, hfactors⟩
      · simp only [if_true, view_update, Nat.mul_one]
        refine ⟨fun u hu => ?_, fun j hj => update_of_ne (by omega) _ _⟩
        obtain rfl : u = 0 := by omega
        simp [dft, view]
      · have hroot' : stageRoot st (fstride * p) = stageRoot st fstride ^ p := by
          rw [stageRoot, stageRoot, pow_mul]
        have hlength' : fstride * p * m = st.nfft := by rw [← hlength, Nat.mul_assoc]
        simp only [if_neg hlt.ne']
        refine ⟨fun u hu => ?_, (ih hfactors hlength' (Nat.mul_pos hstride hp) Fout).2⟩
        rw [(ih hfactors hlength' (Nat.mul_pos hstride hp) Fout).1 u hu, hroot']
        apply dft_congr
        intro t _
        congr 1
        ring
    obtain ⟨hblocks, hother⟩ := blocks_foldl hiteration Fout
    rw [kfWork]
    generalize (List.range p).foldl _ Fout = Fout' at hblocks hother ⊢
    obtain ⟨hcolumns, hothers⟩ := butterflies_spec hstage hp offset Fout'
    refine ⟨fun k hk => ?_, fun j hj => ?_⟩
    · -- the element belongs to column `k % m`
      obtain ⟨u, q, hu, hq, rfl⟩ : ∃ u q, u < m ∧ q < p ∧ u + q * m = k := by
        refine ⟨k % m, k / m, Nat.mod_lt _ hm, Nat.div_lt_of_lt_mul (by rwa [Nat.mul_comm]), ?_⟩
        rw [Nat.mul_comm, Nat.mod_add_div]
      rw [dft_eq_combine hroot, ← Nat.add_assoc, hcolumns u hu q hq]
      refine combine_congr _ _ (fun r hr => ?_) u q
      rw [← hblocks r hr u hu]
      congr 1
      ring
    · rw [hothers j hj, hother j hj]

end Stage

/-! ### The transform -/

theorem toComplex_kfCexp (phase : ℝ) : (kfCexp phase).toComplex = Complex.exp (phase * I) := by
  rw [Complex.exp_mul_I]
  apply Complex.ext
  · simp [Cpx.toComplex, kfCexp, Complex.cos_ofReal_re]
  · simp [Cpx.toComplex, kfCexp, Complex.sin_ofReal_re]

/-- The table of a plan. -/
theorem twiddles_kissFftAlloc (nfft : ℕ) (inverseFft : Bool) (j : ℕ) :
    ((kissFftAlloc nfft inverseFft).twiddles j).toComplex = rootOf inverseFft nfft ^ j := by
  simp only [kissFftAlloc, toComplex_kfCexp]
  have hideal : FftWrapper.idealRoot nfft ^ j = Complex.exp (-2 * Real.pi * j / nfft * I) := by
    rw [FftWrapper.idealRoot, ← Complex.exp_neg, ← Complex.exp_nat_mul]
    congr 1
    push_cast
    ring
  cases inverseFft with
  | true =>
    simp only [rootOf, if_true, inv_pow, hideal, ← Complex.exp_neg]
    congr 1
    push_cast
    ring
  | false =>
    simp only [rootOf, Bool.false_eq_true, if_false, hideal]
    push_cast
    rfl

/-- **The transform of a complex signal**, whose length is arbitrary. -/
theorem kissFft_spec {nfft : ℕ} (hnfft : 0 < nfft) (inverseFft : Bool) (fin fout : ℕ → Cpx ℝ) :
    (∀ k < nfft, view (kissFft (kissFftAlloc nfft inverseFft) fin fout) k =
      dft (rootOf inverseFft nfft) nfft (view fin) k) ∧
    ∀ j, nfft ≤ j → view (kissFft (kissFftAlloc nfft inverseFft) fin fout) j = view fout j := by
  have hwork : (∀ k < nfft, view (kissFft (kissFftAlloc nfft inverseFft) fin fout) (0 + k) =
        dft (stageRoot (kissFftAlloc nfft inverseFft) 1) nfft
          (fun t => view fin (0 + t * (1 * 1))) k) ∧
      ∀ j, j < 0 ∨ 0 + nfft ≤ j →
        view (kissFft (kissFftAlloc nfft inverseFft) fin fout) j = view fout j :=
    kfWork_spec (fun j _ => twiddles_kissFftAlloc nfft inverseFft j) fin 1
      (factors_kfFactor hnfft) (Nat.one_mul nfft) Nat.one_pos fout
  have hroot : stageRoot (kissFftAlloc nfft inverseFft) 1 = rootOf inverseFft nfft := pow_one _
  simp only [hroot, Nat.zero_add, Nat.mul_one] at hwork
  exact ⟨hwork.1, fun j hj => hwork.2 j (.inr hj)⟩

end KissFft

end Visr
