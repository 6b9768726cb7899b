import Mathlib.Analysis.SpecialFunctions.Trigonometric.Basic
import Mathlib.Data.Nat.Sqrt
import Visr.Librbbl.FftWrapper
import Visr.Library.MixedRadix

/-!
# The KissFFT library

The transform of complex signals whose length is the product of small factors.  The length is
divided by one factor after the other, and the results of the shorter transforms are combined by
butterflies, most of which are specialised to a factor.

## Main results

* `KissFft.factors_kfFactor`, `KissFft.length_kfFactor_le` — the factors multiply to the length,
  and there is space for them.
-/

namespace Visr

namespace KissFft

open Function

/-- `kiss_fft_cpx`. -/
@[ext] structure Cpx (R : Type) where
  r : R
  i : R

section Code

variable {R : Type} [Field R]

/-- `C_ADD`. -/
instance : Add (Cpx R) := ⟨fun a b => ⟨a.r + b.r, a.i + b.i⟩⟩

/-- `C_SUB`. -/
instance : Sub (Cpx R) := ⟨fun a b => ⟨a.r - b.r, a.i - b.i⟩⟩

/-- `C_MUL`. -/
instance : Mul (Cpx R) := ⟨fun a b => ⟨a.r * b.r - a.i * b.i, a.r * b.i + a.i * b.r⟩⟩

/-- `C_MULBYSCALAR`. -/
def Cpx.mulByScalar (c : Cpx R) (s : R) : Cpx R := ⟨c.r * s, c.i * s⟩

/-- `HALF_OF`. -/
def halfOf (x : R) : R := x * (1 / (2 : ℕ))

/-- `kiss_fft_state`.  The factors are pairs of a radix and the length that is left. -/
structure State (R : Type) where
  nfft : ℕ
  inverse : Bool
  factors : List (ℕ × ℕ)
  twiddles : ℕ → Cpx R

/-! ### The factors -/

/-- The next radix to be tried. -/
def nextRadix : ℕ → ℕ
  | 4 => 2
  | 2 => 3
  | p => p + 2

/-- The place of a radix in the sequence in which they are tried. -/
def rank (p : ℕ) : ℕ := if p = 4 then 0 else if p = 2 then 1 else p

theorem rank_lt_nextRadix (p : ℕ) : rank p < rank (nextRadix p) := by
  unfold nextRadix
  split
  next => decide
  next => decide
  next h4 h2 =>
    have h4' : p ≠ 4 := h4
    have h2' : p ≠ 2 := h2
    simp only [rank, if_neg h4', if_neg h2']
    split_ifs <;> omega

theorem rank_le (p : ℕ) : rank p ≤ p := by
  unfold rank
  split_ifs <;> omega

/-- The loop `while (n % p)`. -/
def divideRadix (floorSqrt n p : ℕ) : ℕ :=
  if n % p = 0 then p
  else divideRadix floorSqrt n (if nextRadix p > floorSqrt then n else nextRadix p)
termination_by if n % p = 0 then 0 else 1 + (floorSqrt + 5 - rank p)
decreasing_by
  have hrank := rank_lt_nextRadix p
  have hle := rank_le (nextRadix p)
  have hself : n % n = 0 := Nat.mod_self n
  split_ifs <;> omega

theorem divideRadix_dvd (floorSqrt n p : ℕ) : divideRadix floorSqrt n p ∣ n := by
  fun_induction divideRadix floorSqrt n p with
  | case1 p h => exact Nat.dvd_of_mod_eq_zero h
  | case2 p h ih => exact ih

theorem two_le_nextRadix {p : ℕ} (hp : 2 ≤ p) : 2 ≤ nextRadix p := by
  unfold nextRadix
  split <;> omega

theorem two_le_divideRadix {floorSqrt n p : ℕ} (hn : 2 ≤ n) (hp : 2 ≤ p) :
    2 ≤ divideRadix floorSqrt n p := by
  fun_induction divideRadix floorSqrt n p with
  | case1 p h => exact hp
  | case2 p h ih =>
    refine ih ?_
    split
    · exact hn
    · exact two_le_nextRadix hp

/-- The loop over the factors, which starts with the last radix. -/
def factorLoop (floorSqrt n p : ℕ) (hp : 2 ≤ p) : List (ℕ × ℕ) :=
  let radix := divideRadix floorSqrt n p
  if h : 1 < n / radix then
    (radix, n / radix) :: factorLoop floorSqrt (n / radix) radix (two_le_divideRadix
      (h.trans_le (Nat.div_le_self _ _)) hp)
  else [(radix, n / radix)]
termination_by n
decreasing_by
  have hn : 2 ≤ n := h.trans_le (Nat.div_le_self _ _)
  exact Nat.div_lt_self (by omega) (two_le_divideRadix hn hp)

/-- `kf_factor()`. -/
def kfFactor (n : ℕ) : List (ℕ × ℕ) := factorLoop (Nat.sqrt n) n 4 (by decide)

/-- The factors of a length: each radix divides what is left by the ones before. -/
def Factors : ℕ → List (ℕ × ℕ) → Prop
  | _, [] => False
  | n, (p, m) :: rest => 0 < p ∧ n = p * m ∧ (m = 1 ∧ rest = [] ∨ 1 < m ∧ Factors m rest)

theorem factors_factorLoop {floorSqrt n p : ℕ} (hn : 0 < n) (hp : 2 ≤ p) :
    Factors n (factorLoop floorSqrt n p hp) := by
  fun_induction factorLoop floorSqrt n p hp with
  | case1 n p hp radix h ih =>
    have hdvd : radix ∣ n := divideRadix_dvd _ _ _
    exact ⟨Nat.pos_of_dvd_of_pos hdvd hn, (Nat.mul_div_cancel' hdvd).symm, .inr ⟨h, ih (by omega)⟩⟩
  | case2 n p hp radix h =>
    have hdvd : radix ∣ n := divideRadix_dvd _ _ _
    have hpos : 0 < n / radix := Nat.div_pos (Nat.le_of_dvd hn hdvd) (Nat.pos_of_dvd_of_pos hdvd hn)
    exact ⟨Nat.pos_of_dvd_of_pos hdvd hn, (Nat.mul_div_cancel' hdvd).symm, .inl ⟨by omega, rfl⟩⟩

/-- The factors multiply to the length. -/
theorem factors_kfFactor {n : ℕ} (hn : 0 < n) : Factors n (kfFactor n) :=
  factors_factorLoop hn _

theorem two_pow_length_factorLoop (floorSqrt : ℕ) {n p : ℕ} (hn : 0 < n) (hp : 2 ≤ p) :
    2 ^ (factorLoop floorSqrt n p hp).length ≤ 2 * n := by
  fun_induction factorLoop floorSqrt n p hp with
  | case1 n p hp radix h ih =>
    have hradix : 2 ≤ radix := two_le_divideRadix (h.trans_le (Nat.div_le_self _ _)) hp
    have hle : 2 * (n / radix) ≤ n := by
      have hmul := Nat.div_mul_le_self n radix
      have hmono := Nat.mul_le_mul_left (n / radix) hradix
      omega
    rw [List.length_cons, pow_succ]
    have := ih (by omega)
    omega
  | case2 n p hp radix h =>
    simp only [List.length_singleton, pow_one]
    omega

/-- There is space for the factors of all numbers of type `int`, `MAXFACTORS` is 32. -/
theorem length_kfFactor_le {n : ℕ} (hn : 0 < n) (hint : n < 2 ^ 31) :
    (kfFactor n).length ≤ 32 := by
  have hpow := two_pow_length_factorLoop (Nat.sqrt n) hn (by decide : 2 ≤ 4)
  by_contra hlength
  have hlt : 2 ^ 32 < 2 ^ (kfFactor n).length := Nat.pow_lt_pow_right (by decide) (by omega)
  unfold kfFactor at hlt
  omega

/-! ### The butterflies -/

/-- `kf_bfly2()`. -/
def kfBfly2 (offset fstride : ℕ) (st : State R) (m : ℕ) (Fout : ℕ → Cpx R) : ℕ → Cpx R :=
  (List.range m).foldl (fun Fout k =>
    let o := offset + k
    let t := Fout (o + m) * st.twiddles (k * fstride)
    let Fout := update Fout (o + m) (Fout o - t)
    update Fout o (Fout o + t)) Fout

/-- `kf_bfly4()`. -/
def kfBfly4 (offset fstride : ℕ) (st : State R) (m : ℕ) (Fout : ℕ → Cpx R) : ℕ → Cpx R :=
  (List.range m).foldl (fun Fout k =>
    let o := offset + k
    let scratch0 := Fout (o + m) * st.twiddles (k * fstride)
    let scratch1 := Fout (o + 2 * m) * st.twiddles (k * (fstride * 2))
    let scratch2 := Fout (o + 3 * m) * st.twiddles (k * (fstride * 3))
    let scratch5 := Fout o - scratch1
    let Fout := update Fout o (Fout o + scratch1)
    let scratch3 := scratch0 + scratch2
    let scratch4 := scratch0 - scratch2
    let Fout := update Fout (o + 2 * m) (Fout o - scratch3)
    let Fout := update Fout o (Fout o + scratch3)
    if st.inverse then
      let Fout := update Fout (o + m) ⟨scratch5.r - scratch4.i, scratch5.i + scratch4.r⟩
      update Fout (o + 3 * m) ⟨scratch5.r + scratch4.i, scratch5.i - scratch4.r⟩
    else
      let Fout := update Fout (o + m) ⟨scratch5.r + scratch4.i, scratch5.i - scratch4.r⟩
      update Fout (o + 3 * m) ⟨scratch5.r - scratch4.i, scratch5.i + scratch4.r⟩) Fout

/-- `kf_bfly3()`. -/
def kfBfly3 (offset fstride : ℕ) (st : State R) (m : ℕ) (Fout : ℕ → Cpx R) : ℕ → Cpx R :=
  let epi3 := st.twiddles (fstride * m)
  (List.range m).foldl (fun Fout k =>
    let o := offset + k
    let scratch1 := Fout (o + m) * st.twiddles (k * fstride)
    let scratch2 := Fout (o + 2 * m) * st.twiddles (k * (fstride * 2))
    let scratch3 := scratch1 + scratch2
    let scratch0 := scratch1 - scratch2
    let Fout := update Fout (o + m)
      ⟨(Fout o).r - halfOf scratch3.r, (Fout o).i - halfOf scratch3.i⟩
    let scratch0 := scratch0.mulByScalar epi3.i
    let Fout := update Fout o (Fout o + scratch3)
    let Fout := update Fout (o + 2 * m)
      ⟨(Fout (o + m)).r + scratch0.i, (Fout (o + m)).i - scratch0.r⟩
    update Fout (o + m) ⟨(Fout (o + m)).r - scratch0.i, (Fout (o + m)).i + scratch0.r⟩) Fout

/-- `kf_bfly5()`. -/
def kfBfly5 (offset fstride : ℕ) (st : State R) (m : ℕ) (Fout : ℕ → Cpx R) : ℕ → Cpx R :=
  let ya := st.twiddles (fstride * m)
  let yb := st.twiddles (fstride * 2 * m)
  (List.range m).foldl (fun Fout u =>
    let o := offset + u
    let scratch0 := Fout o
    let scratch1 := Fout (o + m) * st.twiddles (u * fstride)
    let scratch2 := Fout (o + 2 * m) * st.twiddles (2 * u * fstride)
    let scratch3 := Fout (o + 3 * m) * st.twiddles (3 * u * fstride)
    let scratch4 := Fout (o + 4 * m) * st.twiddles (4 * u * fstride)
    let scratch7 := scratch1 + scratch4
    let scratch10 := scratch1 - scratch4
    let scratch8 := scratch2 + scratch3
    let scratch9 := scratch2 - scratch3
    let Fout := update Fout o
      ⟨(Fout o).r + (scratch7.r + scratch8.r), (Fout o).i + (scratch7.i + scratch8.i)⟩
    let scratch5 : Cpx R := ⟨scratch0.r + scratch7.r * ya.r + scratch8.r * yb.r,
      scratch0.i + scratch7.i * ya.r + scratch8.i * yb.r⟩
    let scratch6 : Cpx R := ⟨scratch10.i * ya.i + scratch9.i * yb.i,
      -(scratch10.r * ya.i) - scratch9.r * yb.i⟩
    let Fout := update Fout (o + m) (scratch5 - scratch6)
    let Fout := update Fout (o + 4 * m) (scratch5 + scratch6)
    let scratch11 : Cpx R := ⟨scratch0.r + scratch7.r * yb.r + scratch8.r * ya.r,
      scratch0.i + scratch7.i * yb.r + scratch8.i * ya.r⟩
    let scratch12 : Cpx R := ⟨-(scratch10.i * yb.i) + scratch9.i * ya.i,
      scratch10.r * yb.i - scratch9.r * ya.i⟩
    let Fout := update Fout (o + 2 * m) (scratch11 + scratch12)
    update Fout (o + 3 * m) (scratch11 - scratch12)) Fout

/-- One summand for an element in `kf_bfly_generic()`, with the index into the table. -/
def addSummand (fstride : ℕ) (st : State R) (scratch : ℕ → Cpx R) (offset k : ℕ)
    (x : ℕ × (ℕ → Cpx R)) (q : ℕ) : ℕ × (ℕ → Cpx R) :=
  let twidx := x.1 + fstride * k
  let twidx := if twidx ≥ st.nfft then twidx - st.nfft else twidx
  let t := scratch q * st.twiddles twidx
  (twidx, update x.2 (offset + k) (x.2 (offset + k) + t))

/-- The sum for an element in `kf_bfly_generic()`, after some of the summands. -/
def genericSum (fstride : ℕ) (st : State R) (scratch : ℕ → Cpx R) (offset k n : ℕ)
    (Fout : ℕ → Cpx R) : ℕ × (ℕ → Cpx R) :=
  (List.range n).foldl (fun x q => addSummand fstride st scratch offset k x (q + 1))
    (0, update Fout (offset + k) (scratch 0))

/-- `kf_bfly_generic()`. -/
def kfBflyGeneric (offset fstride : ℕ) (st : State R) (m p : ℕ) (Fout : ℕ → Cpx R) :
    ℕ → Cpx R :=
  (List.range m).foldl (fun Fout u =>
    let scratch := fun q1 => Fout (offset + (u + q1 * m))
    (List.range p).foldl (fun Fout q1 =>
      (genericSum fstride st scratch offset (u + q1 * m) (p - 1) Fout).2) Fout) Fout

/-! ### The transform -/

/-- The butterflies for a radix. -/
def butterflies (offset fstride : ℕ) (st : State R) (m p : ℕ) (Fout : ℕ → Cpx R) :
    ℕ → Cpx R :=
  match p with
  | 2 => kfBfly2 offset fstride st m Fout
  | 3 => kfBfly3 offset fstride st m Fout
  | 4 => kfBfly4 offset fstride st m Fout
  | 5 => kfBfly5 offset fstride st m Fout
  | p => kfBflyGeneric offset fstride st m p Fout

/-- `kf_work()`, which reads from `f` at the index `i` and writes from the given offset on. -/
def kfWork (st : State R) (f : ℕ → Cpx R) (inStride : ℕ) :
    List (ℕ × ℕ) → ℕ → ℕ → ℕ → (ℕ → Cpx R) → ℕ → Cpx R
  | [], _, _, _, Fout => Fout
  | (p, m) :: factors, offset, i, fstride, Fout =>
    butterflies offset fstride st m p
      ((List.range p).foldl (fun Fout q =>
        if m = 1 then update Fout (offset + q) (f (i + q * (fstride * inStride)))
        else kfWork st f inStride factors (offset + q * m) (i + q * (fstride * inStride))
          (fstride * p) Fout) Fout)

/-- `kiss_fft()`. -/
def kissFft (st : State R) (fin fout : ℕ → Cpx R) : ℕ → Cpx R :=
  kfWork st fin 1 st.factors 0 0 1 fout

end Code

/-- `kf_cexp()`. -/
noncomputable def kfCexp (phase : ℝ) : Cpx ℝ := ⟨Real.cos phase, Real.sin phase⟩

/-- `kiss_fft_alloc()`. -/
noncomputable def kissFftAlloc (nfft : ℕ) (inverseFft : Bool) : State ℝ where
  nfft := nfft
  inverse := inverseFft
  factors := kfFactor nfft
  twiddles i :=
    let phase := -(2 : ℕ) * Real.pi * i / nfft
    kfCexp (if inverseFft then phase * -1 else phase)

end KissFft

end Visr
