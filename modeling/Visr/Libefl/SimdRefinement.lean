import Mathlib.Algebra.Ring.Int.Defs
import Mathlib.Data.Nat.Factorization.Basic
import Mathlib.Tactic.Ring
import Visr.Libefl.SimdKernels

/-!
# The kernels compute what the vector functions do

## Main results

* `exists_two_pow_of_alignmentIsPowerOfTwo` — which alignments are accepted.
* `IntelX86_64.multiplyPairs_eq`, `IntelX86_64.scalePairs_eq` — products of complex numbers.
* `IntelX86_64.run_eq_reference_iff` — **when the kernels do what the vector functions do**.
-/

namespace Visr

open Simd

/-! ### Alignments -/

/-- An odd number that has no bit in common with the numbers below it. -/
theorem eq_one_of_and_eq {w q : ℕ} (hlt : q < 2 ^ w) (hodd : q % 2 = 1)
    (h : q &&& (2 ^ w - q) = q) : q = 1 := by
  obtain ⟨r, rfl⟩ : ∃ r, q = 2 * r + 1 := ⟨q / 2, by omega⟩
  apply Nat.eq_of_testBit_eq
  intro i
  cases i with
  | zero => simp
  | succ i =>
    have hbit := congrArg (fun n => n.testBit (i + 1)) h
    simp only [Nat.testBit_and, Nat.testBit_two_pow_sub_succ (show 2 * r < 2 ^ w by omega)] at hbit
    have heq : (2 * r + 1).testBit (i + 1) = (2 * r).testBit (i + 1) := by
      simp [Nat.testBit_succ, show (2 * r + 1) / 2 = r by omega]
    rw [heq] at hbit ⊢
    simp [Nat.testBit_succ] at hbit ⊢
    cases hr : r.testBit i
    · rfl
    · simp [hr] at hbit

theorem exists_two_pow_of_alignmentIsPowerOfTwo {alignment : ℕ} (hlt : alignment < 2 ^ 64)
    (h : alignmentIsPowerOfTwo alignment = true) : ∃ k, alignment = 2 ^ k := by
  simp only [alignmentIsPowerOfTwo, Bool.and_eq_true, decide_eq_true_eq, beq_iff_eq] at h
  obtain ⟨hne, hmask⟩ := h
  have hneg : ~~~BitVec.ofNat 64 alignment + 1 = -BitVec.ofNat 64 alignment :=
    (BitVec.neg_eq_not_add _).symm
  rw [hneg] at hmask
  have hand : alignment &&& (2 ^ 64 - alignment) = alignment := by
    have hnat := congrArg BitVec.toNat hmask
    rw [BitVec.toNat_and, BitVec.toNat_neg, BitVec.toNat_ofNat, Nat.mod_eq_of_lt hlt,
      Nat.mod_eq_of_lt (by omega)] at hnat
    exact hnat
  obtain ⟨k, q, hodd, rfl⟩ := Nat.exists_eq_two_pow_mul_odd hne
  have hq : 0 < q := hodd.pos
  have hk : 2 ^ k < 2 ^ 64 := (Nat.le_mul_of_pos_right _ hq).trans_lt hlt
  rw [Nat.pow_lt_pow_iff_right (by decide)] at hk
  have hsplit : 2 ^ 64 = 2 ^ k * 2 ^ (64 - k) := by rw [← Nat.pow_add]; congr 1; omega
  rw [hsplit, ← Nat.mul_sub, Nat.mul_comm (2 ^ k), Nat.mul_comm (2 ^ k), ← Nat.shiftLeft_eq,
    ← Nat.shiftLeft_eq, ← Nat.shiftLeft_and_distrib, Nat.shiftLeft_eq, Nat.shiftLeft_eq] at hand
  have hone : q = 1 := by
    refine eq_one_of_and_eq ?_ (Nat.odd_iff.mp hodd)
      (Nat.eq_of_mul_eq_mul_right (Nat.two_pow_pos k) hand)
    rw [hsplit] at hlt
    exact Nat.lt_of_mul_lt_mul_left hlt
  exact ⟨k, by rw [hone, Nat.mul_one]⟩

/-- An alignment that is not less than a power of two is a multiple of it. -/
theorem mod_eq_zero_of_checkElementAlignment {elementSize address alignment : ℕ}
    (hlt : alignment < 2 ^ 64) (h : checkElementAlignment elementSize address alignment = true)
    {j : ℕ} (hle : 2 ^ j ≤ alignment) : address % (2 ^ j * elementSize) = 0 := by
  have hne : alignment ≠ 0 := by
    have hpos := Nat.two_pow_pos j
    omega
  simp only [checkElementAlignment, Bool.or_eq_true, Bool.and_eq_true, decide_eq_true_eq, hne,
    false_or] at h
  obtain ⟨k, rfl⟩ := exists_two_pow_of_alignmentIsPowerOfTwo hlt h.1
  rw [Nat.pow_le_pow_iff_right (by decide)] at hle
  have hdvd : 2 ^ j * elementSize ∣ 2 ^ k * elementSize :=
    Nat.mul_dvd_mul_right (Nat.pow_dvd_pow 2 hle) elementSize
  exact Nat.mod_eq_zero_of_dvd (hdvd.trans (Nat.dvd_of_mod_eq_zero h.2))

theorem checkAlignment_eq (address alignment : ℕ) :
    checkAlignment address alignment = checkElementAlignment 1 address alignment := by
  unfold checkAlignment checkElementAlignment
  rw [Nat.mul_one]

/-- An access at a multiple of the width of a register, from an aligned address on. -/
theorem add_mod_eq_zero {address start n : ℕ} (haddress : address % n = 0)
    (hstart : start % n = 0) : (address + start) % n = 0 := by
  rw [Nat.add_mod, haddress, hstart, Nat.zero_mod]

/-! ### Complex numbers -/

section Pairs

variable {R : Type} [CommRing R]

theorem interleave_even (f : ℕ → Complex R) (k : ℕ) : interleave f (2 * k) = (f k).re := by
  unfold interleave
  rw [if_pos (by omega), Nat.mul_div_cancel_left k Nat.two_pos]

theorem interleave_odd (f : ℕ → Complex R) (k : ℕ) : interleave f (2 * k + 1) = (f k).im := by
  unfold interleave
  rw [if_neg (by omega), show (2 * k + 1) / 2 = k by omega]

/-- An operation on the first elements of an array of complex numbers. -/
theorem interleave_eq_applyOn {f : ℕ → Complex R} {memory : Pointer R} {g : ℕ → R → R} {n : ℕ}
    (hf : ∀ k < n, (f k).re = g (2 * k) (memory.data (2 * k)) ∧
      (f k).im = g (2 * k + 1) (memory.data (2 * k + 1)))
    (hrest : ∀ k, n ≤ k → f k = memory.complex.data k) :
    interleave f = applyOn g 0 (2 * n) memory.data := by
  funext p
  unfold applyOn
  obtain ⟨k, rfl | rfl⟩ : ∃ k, p = 2 * k ∨ p = 2 * k + 1 := ⟨p / 2, by omega⟩
  · rw [interleave_even]
    by_cases hk : k < n
    · rw [if_pos (by omega), (hf k hk).1]
    · rw [if_neg (by omega), hrest k (by omega)]
      rfl
  · rw [interleave_odd]
    by_cases hk : k < n
    · rw [if_pos (by omega), (hf k hk).2]
    · rw [if_neg (by omega), hrest k (by omega)]
      rfl

/-- What is added to the first elements of an array of complex numbers. -/
theorem interleave_add_eq_applyOn (f : ℕ → Complex R) (memory : Pointer R) (n : ℕ) :
    interleave (fun k =>
        if k < n then memory.complex.data k + f k else memory.complex.data k) =
      applyOn (fun p acc => acc + interleave f p) 0 (2 * n) memory.data := by
  refine interleave_eq_applyOn (fun k hk => ?_) fun k hk => if_neg (by omega)
  rw [if_pos hk, interleave_even, interleave_odd]
  exact ⟨rfl, rfl⟩

namespace IntelX86_64

variable {m start : ℕ}

/-- The products of the elements of two arrays. -/
theorem multiplyPairs_eq (pf1 pf2 : Pointer R) (i : Fin (4 * m)) :
    multiplyPairs (fun j => pf1.data (2 * start + j)) (fun j => pf2.data (2 * start + j)) i =
      interleave (fun k => pf1.complex.data k * pf2.complex.data k) (2 * start + i) := by
  unfold multiplyPairs addSub mul
  rw [permute_lower, permute_upper, permute_swap]
  dsimp only
  obtain ⟨k, hk | hk⟩ : ∃ k, i.val = 2 * k ∨ i.val = 2 * k + 1 := ⟨i.val / 2, by omega⟩
  · -- a real part
    have hhalf : 2 * k / 2 * 2 = 2 * k := by omega
    have hpos : 2 * start + 2 * k = 2 * (start + k) := by omega
    rw [hk, hhalf, if_pos (by omega), Nat.mul_mod_right, ← Nat.add_assoc, hpos, interleave_even]
    simp [Pointer.complex]
    ring
  · -- an imaginary part
    have hhalf : (2 * k + 1) / 2 * 2 = 2 * k := by omega
    have hpos : 2 * start + (2 * k + 1) = 2 * (start + k) + 1 := by omega
    have hother : 2 * start + (2 * k + (1 - (2 * k + 1) % 2)) = 2 * (start + k) := by omega
    have hfirst : 2 * start + 2 * k = 2 * (start + k) := by omega
    rw [hk, hhalf, if_neg (by omega), hother, hpos, hfirst, interleave_odd]
    simp [Pointer.complex]
    ring

/-- The products of a complex number and the elements of an array. -/
theorem scalePairs_eq (c : Complex R) (x : Pointer R) {ab : Register R (4 * m)} {i : Fin (4 * m)}
    (hab : ∀ j : Fin (4 * m), j.val / 2 = i.val / 2 → ab j = x.data (2 * start + j)) :
    scalePairs (broadcast (4 * m) c.re) (broadcast (4 * m) c.im) ab i =
      interleave (fun k => c * x.complex.data k) (2 * start + i) := by
  unfold scalePairs addSub mul
  rw [shuffle_self, permute_swap, hab i rfl, hab _ (by dsimp only; omega)]
  unfold broadcast
  dsimp only
  obtain ⟨k, hk | hk⟩ : ∃ k, i.val = 2 * k ∨ i.val = 2 * k + 1 := ⟨i.val / 2, by omega⟩
  · -- a real part
    have hpos : 2 * start + 2 * k = 2 * (start + k) := by omega
    have hother : 2 * start + (2 * k / 2 * 2 + (1 - 2 * k % 2)) = 2 * (start + k) + 1 := by omega
    rw [hk, if_pos (by omega), hother, hpos, interleave_even]
    simp [Pointer.complex]
    ring
  · -- an imaginary part
    have hpos : 2 * start + (2 * k + 1) = 2 * (start + k) + 1 := by omega
    have hother : 2 * start + ((2 * k + 1) / 2 * 2 + (1 - (2 * k + 1) % 2)) = 2 * (start + k) := by
      omega
    rw [hk, if_neg (by omega), hother, hpos, interleave_odd]
    simp [Pointer.complex]

end IntelX86_64

end Pairs

namespace IntelX86_64

variable {R : Type} [CommRing R] {build : Build}

/-! ### The bodies of the loops -/

section Bodies

variable {aligned : Bool} {n m : ℕ} {pf1 pf2 x : Pointer R} {y start : ℕ}

omit [CommRing R] in
theorem loadAt_eq_ok {p : Pointer R}
    (h : aligned = true → start % n = 0 ∧ p.address % n = 0) :
    loadAt aligned n p start = .ok fun i : Fin n => p.data (start + i) :=
  load_eq_ok (fun haligned => add_mod_eq_zero (h haligned).2 (h haligned).1) _

theorem mulAdd_apply (a b acc : Register R n) (i : Fin n) :
    mulAdd build a b acc i = acc i + a i * b i := by
  unfold mulAdd
  split
  · exact add_comm _ _
  · exact add_comm _ _

theorem mulAddScalar_zero [NeZero n] (a b acc : Register R n) :
    mulAddScalar build a b acc 0 = acc 0 + a 0 * b 0 := by
  unfold mulAddScalar
  split
  · simp [fmaddScalar, add_comm]
  · simp [addScalar, mulScalar, onScalar, add_comm]

theorem multiplyAddBlock_eq
    (h : aligned = true → start % n = 0 ∧ pf1.address % n = 0 ∧ pf2.address % n = 0 ∧ y % n = 0)
    (memory : ℕ → R) :
    multiplyAddBlock build aligned n pf1 pf2 y start memory =
      .ok (applyOn (fun p acc => acc + pf1.data p * pf2.data p) (1 * start) (1 * n) memory) := by
  unfold multiplyAddBlock
  rw [loadAt_eq_ok fun ha => ⟨(h ha).1, (h ha).2.1⟩,
    loadAt_eq_ok fun ha => ⟨(h ha).1, (h ha).2.2.1⟩,
    loadAt_eq_ok fun ha => ⟨(h ha).1, (h ha).2.2.2⟩, Nat.one_mul, Nat.one_mul]
  apply store_eq_ok
  · intro ha
    exact add_mod_eq_zero (h ha).2.2.2 (h ha).1
  · intro i
    exact mulAdd_apply _ _ _ i

theorem multiplyAddSingle_eq [NeZero n] (memory : ℕ → R) :
    multiplyAddSingle build n pf1 pf2 start memory =
      .ok (applyOn (fun p acc => acc + pf1.data p * pf2.data p) (1 * start) (1 * 1) memory) := by
  unfold multiplyAddSingle
  rw [Nat.one_mul, Nat.one_mul]
  refine congrArg Except.ok (storeScalar_eq ?_)
  rw [mulAddScalar_zero]
  simp [Pointer.offset]

theorem complexMultiplyAddBlock_eq
    (h : aligned = true → 2 * start % (4 * m) = 0 ∧ pf1.address % (4 * m) = 0 ∧
      pf2.address % (4 * m) = 0 ∧ y % (4 * m) = 0) (memory : ℕ → R) :
    complexMultiplyAddBlock aligned m pf1 pf2 y start memory =
      .ok (applyOn (fun p acc =>
          acc + interleave (fun k => pf1.complex.data k * pf2.complex.data k) p)
        (2 * start) (2 * (2 * m)) memory) := by
  unfold complexMultiplyAddBlock
  rw [loadAt_eq_ok fun ha => ⟨(h ha).1, (h ha).2.1⟩,
    loadAt_eq_ok fun ha => ⟨(h ha).1, (h ha).2.2.1⟩,
    loadAt_eq_ok fun ha => ⟨(h ha).1, (h ha).2.2.2⟩, show 2 * (2 * m) = 4 * m by omega]
  apply store_eq_ok
  · intro ha
    exact add_mod_eq_zero (h ha).2.2.2 (h ha).1
  · intro i
    unfold add
    rw [multiplyPairs_eq, add_comm]

/-- A single product of complex numbers, in the lower lanes. -/
theorem scalePairs_loadLow (c : Complex R) (x : Pointer R) (start : ℕ) {a : Register R 4}
    {i : Fin 4} (hi : i.val < 2) :
    scalePairs (m := 1) (broadcast 4 c.re) (broadcast 4 c.im)
        (loadLow a (x.offset (2 * start)).data) i =
      interleave (fun k => c * x.complex.data k) (2 * start + i) := by
  apply scalePairs_eq (m := 1) c x (i := i)
  intro j hj
  exact loadLow_of_lt (by omega)

/-- A single product of elements of two arrays, in the lower lanes. -/
theorem singleProduct_eq (pf1 pf2 : Pointer R) (start : ℕ) {i : Fin 4} (hi : i.val < 2) :
    scalePairs (m := 1) (broadcast 4 (pf1.data (2 * start)))
        (broadcast 4 (pf1.data (2 * start + 1)))
        (loadLow (broadcast 4 (pf1.data (2 * start))) (pf2.offset (2 * start)).data) i =
      interleave (fun k => pf1.complex.data k * pf2.complex.data k) (2 * start + i) := by
  have hindex : (2 * start + i.val) / 2 = start := by omega
  refine (scalePairs_loadLow (pf1.complex.data start) pf2 start hi).trans ?_
  unfold interleave
  rw [hindex]

theorem complexMultiplyAddSingle_eq (memory : ℕ → R) :
    complexMultiplyAddSingle pf1 pf2 start memory =
      .ok (applyOn (fun p acc =>
          acc + interleave (fun k => pf1.complex.data k * pf2.complex.data k) p)
        (2 * start) (2 * 1) memory) := by
  unfold complexMultiplyAddSingle
  refine congrArg Except.ok (storeLow_eq ?_ ?_)
  · unfold add
    rw [singleProduct_eq pf1 pf2 start (by decide), loadLow_of_lt (by decide), add_comm]
    rfl
  · unfold add
    rw [singleProduct_eq pf1 pf2 start (by decide), loadLow_of_lt (by decide), add_comm]
    rfl

theorem multiplyConstantAddBlock_eq {alignedStore : Bool} (c : R)
    (hload : aligned = true → start % n = 0 ∧ x.address % n = 0 ∧ y % n = 0)
    (hstore : alignedStore = true → (y + start) % n = 0) (memory : ℕ → R) :
    multiplyConstantAddBlock build aligned alignedStore n c x y start memory =
      .ok (applyOn (fun p acc => acc + c * x.data p) (1 * start) (1 * n) memory) := by
  unfold multiplyConstantAddBlock
  rw [loadAt_eq_ok fun ha => ⟨(hload ha).1, (hload ha).2.1⟩,
    loadAt_eq_ok fun ha => ⟨(hload ha).1, (hload ha).2.2⟩, Nat.one_mul, Nat.one_mul]
  apply store_eq_ok hstore
  intro i
  rw [mulAdd_apply, mul_comm]
  rfl

theorem multiplyConstantAddSingle_eq (c : R) (memory : ℕ → R) :
    multiplyConstantAddSingle build c x start memory =
      .ok (applyOn (fun p acc => acc + c * x.data p) (1 * start) (1 * 1) memory) := by
  unfold multiplyConstantAddSingle
  rw [Nat.one_mul, Nat.one_mul]
  refine congrArg Except.ok (storeScalar_eq ?_)
  rw [mulAddScalar_zero, mul_comm]
  simp [Pointer.offset, broadcast]

theorem complexMultiplyConstantAddBlock_eq (c : Complex R)
    (h : aligned = true → 2 * start % (4 * m) = 0 ∧ x.address % (4 * m) = 0 ∧ y % (4 * m) = 0)
    (memory : ℕ → R) :
    complexMultiplyConstantAddBlock aligned m c x y start memory =
      .ok (applyOn (fun p acc => acc + interleave (fun k => c * x.complex.data k) p)
        (2 * start) (2 * (2 * m)) memory) := by
  unfold complexMultiplyConstantAddBlock
  rw [loadAt_eq_ok fun ha => ⟨(h ha).1, (h ha).2.1⟩, loadAt_eq_ok fun ha => ⟨(h ha).1, (h ha).2.2⟩,
    show 2 * (2 * m) = 4 * m by omega]
  apply store_eq_ok
  · intro ha
    exact add_mod_eq_zero (h ha).2.2 (h ha).1
  · intro i
    unfold add
    rw [scalePairs_eq c x fun _ _ => rfl, add_comm]

theorem complexMultiplyConstantAddSingle_eq (c : Complex R) (memory : ℕ → R) :
    complexMultiplyConstantAddSingle c x start memory =
      .ok (applyOn (fun p acc => acc + interleave (fun k => c * x.complex.data k) p)
        (2 * start) (2 * 1) memory) := by
  unfold complexMultiplyConstantAddSingle
  refine congrArg Except.ok (storeLow_eq ?_ ?_)
  · unfold add
    rw [scalePairs_loadLow c x start (by decide), loadLow_of_lt (by decide), add_comm]
    rfl
  · unfold add
    rw [scalePairs_loadLow c x start (by decide), loadLow_of_lt (by decide), add_comm]
    rfl

theorem multiplyBlock_eq
    (h : aligned = true → start % n = 0 ∧ pf1.address % n = 0 ∧ pf2.address % n = 0 ∧ y % n = 0)
    (memory : ℕ → R) :
    multiplyBlock aligned n pf1 pf2 y start memory =
      .ok (applyOn (fun p _ => pf1.data p * pf2.data p) (1 * start) (1 * n) memory) := by
  unfold multiplyBlock
  rw [loadAt_eq_ok fun ha => ⟨(h ha).1, (h ha).2.1⟩,
    loadAt_eq_ok fun ha => ⟨(h ha).1, (h ha).2.2.1⟩, Nat.one_mul, Nat.one_mul]
  apply store_eq_ok
  · intro ha
    exact add_mod_eq_zero (h ha).2.2.2 (h ha).1
  · intro i
    rfl

theorem multiplySingle_eq [NeZero n] (memory : ℕ → R) :
    multiplySingle n pf1 pf2 start memory =
      .ok (applyOn (fun p _ => pf1.data p * pf2.data p) (1 * start) (1 * 1) memory) := by
  unfold multiplySingle
  rw [Nat.one_mul, Nat.one_mul]
  refine congrArg Except.ok (storeScalar_eq ?_)
  simp [mulScalar, onScalar, Pointer.offset]

theorem complexMultiplyBlock_eq {alignedStore : Bool}
    (hload : aligned = true → 2 * start % (4 * m) = 0 ∧ pf1.address % (4 * m) = 0 ∧
      pf2.address % (4 * m) = 0)
    (hstore : alignedStore = true → (y + 2 * start) % (4 * m) = 0) (memory : ℕ → R) :
    complexMultiplyBlock aligned alignedStore m pf1 pf2 y start memory =
      .ok (applyOn (fun p _ => interleave (fun k => pf1.complex.data k * pf2.complex.data k) p)
        (2 * start) (2 * (2 * m)) memory) := by
  unfold complexMultiplyBlock
  rw [loadAt_eq_ok fun ha => ⟨(hload ha).1, (hload ha).2.1⟩,
    loadAt_eq_ok fun ha => ⟨(hload ha).1, (hload ha).2.2⟩, show 2 * (2 * m) = 4 * m by omega]
  apply store_eq_ok hstore
  intro i
  exact multiplyPairs_eq pf1 pf2 i

theorem complexMultiplySingle_eq (memory : ℕ → R) :
    complexMultiplySingle pf1 pf2 start memory =
      .ok (applyOn (fun p _ => interleave (fun k => pf1.complex.data k * pf2.complex.data k) p)
        (2 * start) (2 * 1) memory) := by
  unfold complexMultiplySingle
  refine congrArg Except.ok (storeLow_eq ?_ ?_)
  · exact singleProduct_eq pf1 pf2 start (by decide)
  · exact singleProduct_eq pf1 pf2 start (by decide)

/-- The result for a sample. -/
def rampScaled (input ramp : Pointer R) (baseGain rampGain : R) (accumulate : Bool) (p : ℕ)
    (output : R) : R :=
  let scale := baseGain + rampGain * ramp.data p
  if accumulate then output + scale * input.data p else scale * input.data p

theorem rampScalingBlock_eq {input ramp : Pointer R} {accumulate : Bool} (baseGain rampGain : R)
    (h : aligned = true → start % n = 0 ∧ input.address % n = 0 ∧ ramp.address % n = 0 ∧ y % n = 0)
    (memory : ℕ → R) :
    rampScalingBlock build aligned n (broadcast n baseGain) (broadcast n rampGain) accumulate input
        ramp y start memory =
      .ok (applyOn (rampScaled input ramp baseGain rampGain accumulate) (1 * start) (1 * n)
        memory) := by
  have hstore : aligned = true → (y + start) % n = 0 := fun ha =>
    add_mod_eq_zero (h ha).2.2.2 (h ha).1
  unfold rampScalingBlock
  rw [loadAt_eq_ok fun ha => ⟨(h ha).1, (h ha).2.2.1⟩,
    loadAt_eq_ok fun ha => ⟨(h ha).1, (h ha).2.1⟩, Nat.one_mul, Nat.one_mul]
  simp only [ok_bind]
  cases accumulate with
  | true =>
    rw [if_pos rfl, loadAt_eq_ok fun ha => ⟨(h ha).1, (h ha).2.2.2⟩, ok_bind]
    apply store_eq_ok hstore
    intro i
    rw [mulAdd_apply, mulAdd_apply]
    simp [rampScaled, broadcast, mul_comm]
  | false =>
    rw [if_neg (by decide)]
    apply store_eq_ok hstore
    intro i
    unfold mul
    rw [mulAdd_apply]
    simp [rampScaled, broadcast, mul_comm]

theorem rampScalingSingle_eq {input ramp : Pointer R} {accumulate : Bool} (baseGain rampGain : R)
    (memory : ℕ → R) :
    rampScalingSingle (broadcast 4 baseGain) (broadcast 4 rampGain) accumulate input ramp start
        memory =
      .ok (applyOn (rampScaled input ramp baseGain rampGain accumulate) (1 * start) (1 * 1)
        memory) := by
  unfold rampScalingSingle
  rw [Nat.one_mul, Nat.one_mul]
  cases accumulate with
  | true =>
    refine congrArg Except.ok (storeScalar_eq ?_)
    simp [rampScaled, addScalar, onScalar, mul, broadcast, Pointer.offset]
    ring
  | false =>
    refine congrArg Except.ok (storeScalar_eq ?_)
    simp [rampScaled, addScalar, onScalar, mul, broadcast, Pointer.offset]
    ring

/-- Both ways to fill a register. -/
theorem splat_eq (c : R) : splat build c = broadcast 4 c := by
  unfold splat
  split
  · rfl
  · funext i
    fin_cases i <;> rfl

end Bodies

/-! ### The kernels -/

section Kernels

variable {numElements alignment : ℕ}

/-- All operands meet an alignment. -/
def Accepts (elementSize alignment : ℕ) (operands : List (Pointer R)) : Prop :=
  alignment < 2 ^ 64 ∧
    ∀ p ∈ operands, checkElementAlignment elementSize p.address alignment = true

omit [CommRing R] in
/-- Accesses of a power of two of elements are aligned if the alignment is large enough. -/
theorem Accepts.aligned {elementSize alignment : ℕ} {operands : List (Pointer R)}
    (h : Accepts elementSize alignment operands) {p : Pointer R} (hp : p ∈ operands) {j : ℕ}
    (hle : 2 ^ j ≤ alignment) : p.address % (2 ^ j * elementSize) = 0 :=
  mod_eq_zero_of_checkElementAlignment h.1 (h.2 p hp) hle

theorem vectorMultiplyAddInplaceReal_eq {i j : ℕ} [NeZero (2 ^ j)]
    {factor1 factor2 accumulator : Pointer R}
    (h : Accepts 1 alignment [factor1, factor2, accumulator]) :
    vectorMultiplyAddInplaceReal build (2 ^ i) (2 ^ j) factor1 factor2 accumulator numElements
        alignment =
      .ok (.ok (applyOn (fun p acc => acc + factor1.data p * factor2.data p) 0 (1 * numElements)
        accumulator.data)) := by
  have hcheck : ∀ p ∈ [factor1, factor2, accumulator], checkAlignment p.address alignment = true :=
    fun p hp => (checkAlignment_eq _ _).trans (h.2 p hp)
  have haligned : ∀ p ∈ [factor1, factor2, accumulator], 2 ^ i ≤ alignment →
      p.address % 2 ^ i = 0 := by
    intro p hp hle
    have hmod := h.aligned hp hle
    rwa [Nat.mul_one] at hmod
  simp only [List.forall_mem_cons] at hcheck haligned
  obtain ⟨hcheck1, hcheck2, hcheck3, -⟩ := hcheck
  obtain ⟨hfactor1, hfactor2, haccumulator, -⟩ := haligned
  unfold vectorMultiplyAddInplaceReal
  rw [hcheck1, hcheck2, hcheck3]
  simp only [Bool.not_true, Bool.false_eq_true, if_false]
  -- the loops without AVX
  have htail : ∀ p : Progress R, p.Reaches (fun p acc => acc + factor1.data p * factor2.data p) 1
      numElements accumulator.data →
      (whileAtLeast (2 ^ j) (multiplyAddBlock build false (2 ^ j) factor1 factor2
        accumulator.address) p >>= fun p =>
          whileAtLeast 1 (multiplyAddSingle build (2 ^ j) factor1 factor2) p >>= fun p =>
            pure (.ok p.memory)) =
        (.ok (.ok (applyOn (fun p acc => acc + factor1.data p * factor2.data p) 0
          (1 * numElements) accumulator.data)) : Except Trap (Written R)) := by
    intro p hp
    apply hp.bind (Nat.two_pow_pos j)
    · intro start _
      exact multiplyAddBlock_eq nofun
    · intro p hp _ _
      exact hp.bind_last (fun start => multiplyAddSingle_eq) Except.ok
  split
  · apply Progress.reaches_start.bind (Nat.two_pow_pos i)
    · intro start hstart
      apply multiplyAddBlock_eq
      intro ha
      have hle := of_decide_eq_true ha
      exact ⟨hstart, hfactor1 hle, hfactor2 hle, haccumulator hle⟩
    · intro p hp _ _
      split
      next hcount =>
        rw [hp.memory_eq hcount]
        rfl
      next => exact htail p hp
  · exact htail _ Progress.reaches_start

theorem vectorMultiplyAddInplaceComplex_eq {factor1 factor2 accumulator : Pointer R}
    (h : Accepts 2 alignment [factor1, factor2, accumulator]) :
    vectorMultiplyAddInplaceComplex build factor1 factor2 accumulator numElements alignment =
      .ok (.ok (applyOn (fun p acc =>
          acc + interleave (fun k => factor1.complex.data k * factor2.complex.data k) p) 0
        (2 * numElements) accumulator.data)) := by
  have hcheck := h.2
  have haligned4 := fun p hp => h.aligned (p := p) hp (j := 2)
  have haligned2 := fun p hp => h.aligned (p := p) hp (j := 1)
  simp only [List.forall_mem_cons] at hcheck haligned4 haligned2
  obtain ⟨hcheck1, hcheck2, hcheck3, -⟩ := hcheck
  unfold vectorMultiplyAddInplaceComplex
  rw [hcheck1, hcheck2, hcheck3]
  simp only [Bool.not_true, Bool.false_eq_true, if_false]
  split
  · apply Progress.reaches_start.bind (w := 4) (by decide)
    · intro start hstart
      apply complexMultiplyAddBlock_eq (m := 2)
      intro ha
      have hle := of_decide_eq_true ha
      dsimp only at hstart
      exact ⟨by omega, haligned4.1 hle, haligned4.2.1 hle, haligned4.2.2.1 hle⟩
    · intro p hp _ hdone
      split
      next hcount =>
        rw [hp.memory_eq hcount]
        rfl
      next =>
        split
        next hle =>
          -- pairs of complex numbers are only processed if they are aligned
          apply hp.bind (w := 2) (by decide)
          · intro start hstart
            apply complexMultiplyAddBlock_eq (m := 1)
            intro _
            dsimp only at hdone
            exact ⟨by omega, haligned2.1 hle, haligned2.2.1 hle, haligned2.2.2.1 hle⟩
          · intro p hp _ _
            exact hp.bind_last (fun start => complexMultiplyAddSingle_eq) Except.ok
        next => exact hp.bind_last (fun start => complexMultiplyAddSingle_eq) Except.ok
  · exact Progress.reaches_start.bind_last (fun start => complexMultiplyAddSingle_eq) Except.ok

/-- What is left for the loop over blocks of four elements. -/
def remaining (build : Build) (numElements : ℕ) : ℕ :=
  if build.avx then numElements % 8 else numElements

/-- The loops over four and single elements. -/
theorem multiplyConstantAdd_tail {c : R} {factor accumulator : Pointer R} {p : Progress R}
    (hp : p.Reaches (fun p acc => acc + c * factor.data p) 1 numElements accumulator.data)
    (hdone : p.done % 4 = 0) :
    ((whileAtLeast 4 (multiplyConstantAddBlock build false true 4 c factor accumulator.address) p
        >>= fun p => whileAtLeast 1 (multiplyConstantAddSingle build c factor) p >>= fun p =>
          pure (.ok p.memory)) : Except Trap (Written R)) =
      if accumulator.address % 4 = 0 ∨ p.count < 4 then
        .ok (.ok (applyOn (fun p acc => acc + c * factor.data p) 0 (1 * numElements)
          accumulator.data))
      else .error .unalignedAccess := by
  split
  next haligned =>
    by_cases hcount : p.count < 4
    · -- no block is left
      have hloop : whileAtLeast 4
          (multiplyConstantAddBlock build false true 4 c factor accumulator.address) p = .ok p := by
        unfold whileAtLeast
        cases hc : p.count with
        | zero => rfl
        | succ k => rw [blocks, if_neg (by omega)]
      rw [hloop]
      exact hp.bind_last (fun start => multiplyConstantAddSingle_eq c) Except.ok
    · have haddress := haligned.resolve_right hcount
      apply hp.bind (w := 4) (by decide)
      · intro start hstart
        apply multiplyConstantAddBlock_eq c
        · simp
        · intro _
          exact add_mod_eq_zero haddress (by omega)
      · intro p hp _ _
        exact hp.bind_last (fun start => multiplyConstantAddSingle_eq c) Except.ok
  next hnot =>
    have hbody : multiplyConstantAddBlock build false true 4 c factor accumulator.address p.done
        p.memory = .error .unalignedAccess := by
      unfold multiplyConstantAddBlock
      have hload : ∀ q : Pointer R, loadAt false 4 q p.done = .ok fun i : Fin 4 =>
          q.data (p.done + i) := fun q => loadAt_eq_ok (by simp)
      rw [hload, hload, ok_bind, ok_bind]
      exact store_unaligned (by omega)
    rw [whileAtLeast_error (by decide) (by omega) hbody]
    rfl

theorem vectorMultiplyConstantAddInplaceFloat_eq {c : R} {factor accumulator : Pointer R}
    (h : Accepts 1 alignment [factor, accumulator]) :
    vectorMultiplyConstantAddInplaceFloat build c factor accumulator numElements alignment =
      if accumulator.address % 4 = 0 ∨ remaining build numElements < 4 then
        .ok (.ok (applyOn (fun p acc => acc + c * factor.data p) 0 (1 * numElements)
          accumulator.data))
      else .error .unalignedAccess := by
  have haligned := fun p hp => h.aligned (p := p) hp (j := 3)
  simp only [List.forall_mem_cons] at haligned
  unfold vectorMultiplyConstantAddInplaceFloat remaining
  dsimp only
  split
  · apply Progress.reaches_start.bind (w := 8) (by decide)
    · intro start hstart
      apply multiplyConstantAddBlock_eq c
      · intro ha
        have hle := of_decide_eq_true ha
        exact ⟨hstart, haligned.1 hle, haligned.2.1 hle⟩
      · intro ha
        exact add_mod_eq_zero (haligned.2.1 (of_decide_eq_true ha)) hstart
    · -- what the blocks of eight leave, or all elements of an array with a smaller alignment
      intro p hp hcount hdone
      dsimp only at hcount hdone
      split
      next hzero =>
        rw [if_pos (by omega), hp.memory_eq hzero]
        rfl
      next =>
        rw [← hcount]
        exact multiplyConstantAdd_tail hp (by omega)
  · exact multiplyConstantAdd_tail Progress.reaches_start rfl

theorem vectorMultiplyConstantAddInplaceComplex_eq {c : Complex R}
    {factor accumulator : Pointer R} (h : Accepts 2 alignment [factor, accumulator]) :
    vectorMultiplyConstantAddInplaceComplex build c factor accumulator numElements alignment =
      .ok (.ok (applyOn (fun p acc => acc + interleave (fun k => c * factor.complex.data k) p) 0
        (2 * numElements) accumulator.data)) := by
  have haligned4 := fun p hp => h.aligned (p := p) hp (j := 2)
  have haligned2 := fun p hp => h.aligned (p := p) hp (j := 1)
  simp only [List.forall_mem_cons] at haligned4 haligned2
  -- the loops over two and single elements
  have htail : ∀ p : Progress R, p.Reaches
      (fun p acc => acc + interleave (fun k => c * factor.complex.data k) p) 2 numElements
      accumulator.data → p.done % 4 = 0 →
      ((if 2 ≤ alignment then
          whileAtLeast 2 (complexMultiplyConstantAddBlock true 1 c factor accumulator.address) p
            >>= fun p => whileAtLeast 1 (complexMultiplyConstantAddSingle c factor) p >>= fun p =>
              pure (.ok p.memory)
        else whileAtLeast 1 (complexMultiplyConstantAddSingle c factor) p >>= fun p =>
          pure (.ok p.memory)) : Except Trap (Written R)) =
        .ok (.ok (applyOn (fun p acc => acc + interleave (fun k => c * factor.complex.data k) p) 0
          (2 * numElements) accumulator.data)) := by
    intro p hp hdone
    split
    next hle =>
      apply hp.bind (w := 2) (by decide)
      · intro start hstart
        apply complexMultiplyConstantAddBlock_eq (m := 1) c
        intro _
        exact ⟨by omega, haligned2.1 hle, haligned2.2.1 hle⟩
      · intro p hp _ _
        exact hp.bind_last (fun start => complexMultiplyConstantAddSingle_eq c) Except.ok
    next => exact hp.bind_last (fun start => complexMultiplyConstantAddSingle_eq c) Except.ok
  unfold vectorMultiplyConstantAddInplaceComplex
  dsimp only
  split
  · apply Progress.reaches_start.bind (w := 4) (by decide)
    · intro start hstart
      apply complexMultiplyConstantAddBlock_eq (m := 2) c
      intro ha
      have hle := of_decide_eq_true ha
      dsimp only at hstart
      exact ⟨by omega, haligned4.1 hle, haligned4.2.1 hle⟩
    · intro p hp _ hdone
      split
      next hzero =>
        rw [hp.memory_eq hzero]
        rfl
      next => exact htail p hp hdone
  · exact htail _ Progress.reaches_start rfl

theorem vectorMultiplyReal_eq {i j : ℕ} [NeZero (2 ^ j)] {factor1 factor2 result : Pointer R}
    (h : Accepts 1 alignment [factor1, factor2, result]) :
    vectorMultiplyReal build (2 ^ i) (2 ^ j) factor1 factor2 result numElements alignment =
      .ok (.ok (applyOn (fun p _ => factor1.data p * factor2.data p) 0 (1 * numElements)
        result.data)) := by
  have hcheck : ∀ p ∈ [factor1, factor2, result], checkAlignment p.address alignment = true :=
    fun p hp => (checkAlignment_eq _ _).trans (h.2 p hp)
  have haligned := fun p hp => h.aligned (p := p) hp (j := i)
  simp only [List.forall_mem_cons, Nat.mul_one] at hcheck haligned
  obtain ⟨hcheck1, hcheck2, hcheck3, -⟩ := hcheck
  unfold vectorMultiplyReal
  rw [hcheck1, hcheck2, hcheck3]
  simp only [Bool.not_true, Bool.false_eq_true, if_false]
  split
  · apply Progress.reaches_start.bind (Nat.two_pow_pos i)
    · intro start hstart
      apply multiplyBlock_eq
      intro ha
      have hle := of_decide_eq_true ha
      exact ⟨hstart, haligned.1 hle, haligned.2.1 hle, haligned.2.2.1 hle⟩
    · intro p hp _ _
      exact hp.bind_last (fun start => multiplySingle_eq) Except.ok
  · exact Progress.reaches_start.bind_last (fun start => multiplySingle_eq) Except.ok

theorem vectorMultiplyComplex_eq {factor1 factor2 result : Pointer R}
    (h : Accepts 2 alignment [factor1, factor2, result]) :
    vectorMultiplyComplex build factor1 factor2 result numElements alignment =
      .ok (.ok (applyOn (fun p _ =>
          interleave (fun k => factor1.complex.data k * factor2.complex.data k) p) 0
        (2 * numElements) result.data)) := by
  have hcheck := h.2
  have haligned4 := fun p hp => h.aligned (p := p) hp (j := 2)
  have haligned2 := fun p hp => h.aligned (p := p) hp (j := 1)
  simp only [List.forall_mem_cons] at hcheck haligned4 haligned2
  obtain ⟨hcheck1, hcheck2, hcheck3, -⟩ := hcheck
  unfold vectorMultiplyComplex
  rw [hcheck1, hcheck2, hcheck3]
  simp only [Bool.not_true, Bool.false_eq_true, if_false]
  split
  · apply Progress.reaches_start.bind (w := 4) (by decide)
    · intro start hstart
      dsimp only at hstart
      apply complexMultiplyBlock_eq (m := 2)
      · intro ha
        have hle := of_decide_eq_true ha
        exact ⟨by omega, haligned4.1 hle, haligned4.2.1 hle⟩
      · intro ha
        exact add_mod_eq_zero (haligned4.2.2.1 (of_decide_eq_true ha)) (by omega)
    · -- the rest, in blocks of one pair and one element
      intro p hp _ hdone
      dsimp only at hdone
      split
      next hcount =>
        rw [hp.memory_eq hcount]
        rfl
      next =>
        split
        next hle =>
          apply hp.bind (w := 2) (by decide)
          · intro start hstart
            apply complexMultiplyBlock_eq (m := 1)
            · exact nofun
            · intro _
              exact add_mod_eq_zero (haligned2.2.2.1 hle) (by omega)
          · intro p hp _ _
            exact hp.bind_last (fun start => complexMultiplySingle_eq) Except.ok
        next => exact hp.bind_last (fun start => complexMultiplySingle_eq) Except.ok
  · exact Progress.reaches_start.bind_last (fun start => complexMultiplySingle_eq) Except.ok

theorem vectorRampScaling_eq {input ramp output : Pointer R} {baseGain rampGain : R}
    {accumulate : Bool} (h : Accepts 1 alignment [input, ramp, output]) :
    vectorRampScaling build input ramp output baseGain rampGain numElements accumulate alignment =
      .ok (.ok (applyOn (rampScaled input ramp baseGain rampGain accumulate) 0 (1 * numElements)
        output.data)) := by
  have hcheck : ∀ p ∈ [input, ramp, output], checkAlignment p.address alignment = true :=
    fun p hp => (checkAlignment_eq _ _).trans (h.2 p hp)
  have haligned8 := fun p hp => h.aligned (p := p) hp (j := 3)
  have haligned4 := fun p hp => h.aligned (p := p) hp (j := 2)
  simp only [List.forall_mem_cons] at hcheck haligned8 haligned4
  obtain ⟨hcheck1, hcheck2, hcheck3, -⟩ := hcheck
  unfold vectorRampScaling
  rw [hcheck1, hcheck2, hcheck3, splat_eq, splat_eq]
  simp only [Bool.not_true, Bool.and_false, Bool.false_eq_true, if_false]
  -- the loops over four and single elements
  have htail : ∀ p : Progress R, p.Reaches (rampScaled input ramp baseGain rampGain accumulate) 1
      numElements output.data → p.done % 4 = 0 →
      (whileAtLeast 4 (rampScalingBlock build (4 ≤ alignment) 4 (broadcast 4 baseGain)
        (broadcast 4 rampGain) accumulate input ramp output.address) p >>= fun p =>
          whileAtLeast 1 (rampScalingSingle (broadcast 4 baseGain) (broadcast 4 rampGain)
            accumulate input ramp) p >>= fun p => pure (.ok p.memory)) =
        (.ok (.ok (applyOn (rampScaled input ramp baseGain rampGain accumulate) 0
          (1 * numElements) output.data)) : Except Trap (Written R)) := by
    intro p hp hdone
    apply hp.bind (w := 4) (by decide)
    · intro start hstart
      apply rampScalingBlock_eq
      intro ha
      have hle := of_decide_eq_true ha
      exact ⟨by omega, haligned4.1 hle, haligned4.2.1 hle, haligned4.2.2.1 hle⟩
    · intro p hp _ _
      exact hp.bind_last (fun start => rampScalingSingle_eq baseGain rampGain) Except.ok
  split
  · apply Progress.reaches_start.bind (w := 8) (by decide)
    · intro start hstart
      apply rampScalingBlock_eq
      intro ha
      have hle := of_decide_eq_true ha
      exact ⟨hstart, haligned8.1 hle, haligned8.2.1 hle, haligned8.2.2.1 hle⟩
    · intro p hp _ hdone
      dsimp only at hdone
      exact htail p hp (by omega)
  · exact htail _ Progress.reaches_start rfl

end Kernels

/-! ### Calls -/

/-- The calls of the kernels.  Operands of different names do not overlap. -/
inductive Call (R : Type) [CommRing R]
  | multiplyAddFloat (factor1 factor2 accumulator : Pointer R) (numElements alignment : ℕ)
  | multiplyAddDouble (factor1 factor2 accumulator : Pointer R) (numElements alignment : ℕ)
  | multiplyAddComplex (factor1 factor2 accumulator : Pointer R) (numElements alignment : ℕ)
  | multiplyConstantAddFloat (constFactor : R) (factor accumulator : Pointer R)
      (numElements alignment : ℕ)
  | multiplyConstantAddComplex (constFactor : Complex R) (factor accumulator : Pointer R)
      (numElements alignment : ℕ)
  | multiplyFloat (factor1 factor2 result : Pointer R) (numElements alignment : ℕ)
  | multiplyDouble (factor1 factor2 result : Pointer R) (numElements alignment : ℕ)
  | multiplyComplex (factor1 factor2 result : Pointer R) (numElements alignment : ℕ)
  | rampScaling (input ramp output : Pointer R) (baseGain rampGain : R) (numberOfElements : ℕ)
      (accumulate : Bool) (alignmentElements : ℕ)

namespace Call

/-- The kernel. -/
def run (build : Build) : Call R → Except Trap (Written R)
  | multiplyAddFloat f1 f2 acc n alignment =>
    vectorMultiplyAddInplaceFloat build f1 f2 acc n alignment
  | multiplyAddDouble f1 f2 acc n alignment =>
    vectorMultiplyAddInplaceDouble build f1 f2 acc n alignment
  | multiplyAddComplex f1 f2 acc n alignment =>
    vectorMultiplyAddInplaceComplex build f1 f2 acc n alignment
  | multiplyConstantAddFloat c f acc n alignment =>
    vectorMultiplyConstantAddInplaceFloat build c f acc n alignment
  | multiplyConstantAddComplex c f acc n alignment =>
    vectorMultiplyConstantAddInplaceComplex build c f acc n alignment
  | multiplyFloat f1 f2 result n alignment => vectorMultiplyFloat build f1 f2 result n alignment
  | multiplyDouble f1 f2 result n alignment => vectorMultiplyDouble build f1 f2 result n alignment
  | multiplyComplex f1 f2 result n alignment => vectorMultiplyComplex build f1 f2 result n alignment
  | rampScaling input ramp output baseGain rampGain n accumulate alignment =>
    vectorRampScaling build input ramp output baseGain rampGain n accumulate alignment

/-- The vector function for all processors. -/
def reference : Call R → Written R
  | multiplyAddFloat f1 f2 acc n alignment => vectorMultiplyAddInplace f1 f2 acc n alignment
  | multiplyAddDouble f1 f2 acc n alignment => vectorMultiplyAddInplace f1 f2 acc n alignment
  | multiplyAddComplex f1 f2 acc n alignment =>
    (vectorMultiplyAddInplace f1.complex f2.complex acc.complex n alignment).map interleave
  | multiplyConstantAddFloat c f acc n alignment =>
    vectorMultiplyConstantAddInplace c f acc n alignment
  | multiplyConstantAddComplex c f acc n alignment =>
    (vectorMultiplyConstantAddInplace c f.complex acc.complex n alignment).map interleave
  | multiplyFloat f1 f2 result n alignment => vectorMultiply f1 f2 result n alignment
  | multiplyDouble f1 f2 result n alignment => vectorMultiply f1 f2 result n alignment
  | multiplyComplex f1 f2 result n alignment =>
    (vectorMultiply f1.complex f2.complex result.complex n alignment).map interleave
  | rampScaling input ramp output baseGain rampGain n accumulate _ =>
    .ok (Visr.vectorRampScaling input.data ramp.data output.data baseGain rampGain n accumulate)

/-- All operands meet the alignment that is passed. -/
def Admissible : Call R → Prop
  | multiplyAddFloat f1 f2 acc _ alignment => Accepts 1 alignment [f1, f2, acc]
  | multiplyAddDouble f1 f2 acc _ alignment => Accepts 1 alignment [f1, f2, acc]
  | multiplyAddComplex f1 f2 acc _ alignment => Accepts 2 alignment [f1, f2, acc]
  | multiplyConstantAddFloat _ f acc _ alignment => Accepts 1 alignment [f, acc]
  | multiplyConstantAddComplex _ f acc _ alignment => Accepts 2 alignment [f, acc]
  | multiplyFloat f1 f2 result _ alignment => Accepts 1 alignment [f1, f2, result]
  | multiplyDouble f1 f2 result _ alignment => Accepts 1 alignment [f1, f2, result]
  | multiplyComplex f1 f2 result _ alignment => Accepts 2 alignment [f1, f2, result]
  | rampScaling input ramp output _ _ _ _ alignment => Accepts 1 alignment [input, ramp, output]

/-- No block of four elements is stored at an address that is not a multiple of its size. -/
def StoresAligned (build : Build) : Call R → Prop
  | multiplyConstantAddFloat _ _ acc n _ => acc.address % 4 = 0 ∨ remaining build n < 4
  | _ => True

end Call

/-! ### The vector functions -/

section References

variable {T : Type} [CommRing T] {numElements alignment : ℕ}

omit [CommRing T] in
theorem applyOn_start (g : ℕ → T → T) (n : ℕ) (memory : ℕ → T) :
    applyOn g 0 (1 * n) memory = fun p => if p < n then g p (memory p) else memory p := by
  funext p
  unfold applyOn
  simp

theorem vectorMultiplyAddInplace_of_aligned {factor1 factor2 accumulator : Pointer T}
    (h : ∀ p ∈ [factor1, factor2, accumulator], checkAlignment p.address alignment = true) :
    vectorMultiplyAddInplace factor1 factor2 accumulator numElements alignment = .ok fun idx =>
      if idx < numElements then accumulator.data idx + factor1.data idx * factor2.data idx
      else accumulator.data idx := by
  simp only [List.forall_mem_cons] at h
  unfold vectorMultiplyAddInplace
  rw [h.1, h.2.1, h.2.2.1]
  rfl

theorem vectorMultiplyConstantAddInplace_of_aligned {c : T} {factor accumulator : Pointer T}
    (h : ∀ p ∈ [factor, accumulator], checkAlignment p.address alignment = true) :
    vectorMultiplyConstantAddInplace c factor accumulator numElements alignment = .ok fun idx =>
      if idx < numElements then accumulator.data idx + c * factor.data idx
      else accumulator.data idx := by
  simp only [List.forall_mem_cons] at h
  unfold vectorMultiplyConstantAddInplace
  rw [h.1, h.2.1]
  rfl

theorem vectorMultiply_of_aligned {factor1 factor2 result : Pointer T}
    (h : ∀ p ∈ [factor1, factor2, result], checkAlignment p.address alignment = true) :
    vectorMultiply factor1 factor2 result numElements alignment = .ok fun idx =>
      if idx < numElements then factor1.data idx * factor2.data idx else result.data idx := by
  simp only [List.forall_mem_cons] at h
  unfold vectorMultiply
  rw [h.1, h.2.1, h.2.2.1]
  rfl

omit [CommRing R] in
theorem Accepts.checkAlignment {operands : List (Pointer R)} (h : Accepts 1 alignment operands) :
    ∀ p ∈ operands, checkAlignment p.address alignment = true :=
  fun p hp => (checkAlignment_eq _ _).trans (h.2 p hp)

/-- The checks for arrays of complex numbers. -/
theorem Accepts.checkAlignment_complex {operands : List (Pointer R)}
    (h : Accepts 2 alignment operands) :
    ∀ p ∈ operands.map Pointer.complex, Visr.checkAlignment p.address alignment = true := by
  intro _ hmem
  obtain ⟨p, hp, rfl⟩ := List.mem_map.mp hmem
  have hcheck := h.2 p hp
  simp only [checkElementAlignment, Bool.or_eq_true, Bool.and_eq_true, decide_eq_true_eq] at hcheck
  simp only [Visr.checkAlignment, Bool.or_eq_true, Bool.and_eq_true, decide_eq_true_eq]
  refine hcheck.imp_right fun hpow => ⟨hpow.1, ?_⟩
  obtain ⟨k, hk⟩ := Nat.dvd_of_mod_eq_zero hpow.2
  have hhalf : p.complex.address = alignment * k := by
    unfold Pointer.complex
    rw [hk, Nat.mul_right_comm, Nat.mul_div_cancel _ Nat.two_pos]
  rw [hhalf, Nat.mul_mod_right]

end References

/-- **The kernels do what the vector functions do**, and all instructions are executed, unless
blocks of four products with a constant are stored at addresses that are not aligned. -/
theorem run_eq_reference_iff (build : Build) (call : Call R) (h : call.Admissible) :
    call.run build = .ok call.reference ↔ call.StoresAligned build := by
  cases call with
  | multiplyAddFloat f1 f2 acc n alignment =>
    refine iff_of_true ?_ trivial
    refine (vectorMultiplyAddInplaceReal_eq (i := 3) (j := 2) h).trans ?_
    rw [Call.reference, vectorMultiplyAddInplace_of_aligned h.checkAlignment, applyOn_start]
  | multiplyAddDouble f1 f2 acc n alignment =>
    refine iff_of_true ?_ trivial
    refine (vectorMultiplyAddInplaceReal_eq (i := 2) (j := 1) h).trans ?_
    rw [Call.reference, vectorMultiplyAddInplace_of_aligned h.checkAlignment, applyOn_start]
  | multiplyAddComplex f1 f2 acc n alignment =>
    refine iff_of_true ?_ trivial
    refine (vectorMultiplyAddInplaceComplex_eq h).trans ?_
    rw [Call.reference, vectorMultiplyAddInplace_of_aligned h.checkAlignment_complex]
    exact congrArg (Except.ok ∘ Except.ok) (interleave_add_eq_applyOn _ _ _).symm
  | multiplyConstantAddFloat c f acc n alignment =>
    rw [Call.run, vectorMultiplyConstantAddInplaceFloat_eq h, Call.reference,
      vectorMultiplyConstantAddInplace_of_aligned h.checkAlignment, applyOn_start,
      Call.StoresAligned]
    split
    next haligned => exact iff_of_true rfl haligned
    next hnot => exact iff_of_false nofun hnot
  | multiplyConstantAddComplex c f acc n alignment =>
    refine iff_of_true ?_ trivial
    refine (vectorMultiplyConstantAddInplaceComplex_eq h).trans ?_
    rw [Call.reference, vectorMultiplyConstantAddInplace_of_aligned h.checkAlignment_complex]
    exact congrArg (Except.ok ∘ Except.ok) (interleave_add_eq_applyOn _ _ _).symm
  | multiplyFloat f1 f2 result n alignment =>
    refine iff_of_true ?_ trivial
    refine (vectorMultiplyReal_eq (i := 3) (j := 2) h).trans ?_
    rw [Call.reference, vectorMultiply_of_aligned h.checkAlignment, applyOn_start]
  | multiplyDouble f1 f2 result n alignment =>
    refine iff_of_true ?_ trivial
    refine (vectorMultiplyReal_eq (i := 2) (j := 1) h).trans ?_
    rw [Call.reference, vectorMultiply_of_aligned h.checkAlignment, applyOn_start]
  | multiplyComplex f1 f2 result n alignment =>
    refine iff_of_true ?_ trivial
    refine (vectorMultiplyComplex_eq h).trans ?_
    rw [Call.reference, vectorMultiply_of_aligned h.checkAlignment_complex]
    refine congrArg (Except.ok ∘ Except.ok) (interleave_eq_applyOn ?_ ?_).symm
    · intro k hk
      simp [hk, interleave_even, interleave_odd, Pointer.complex]
    · intro k hk
      exact if_neg (by omega)
  | rampScaling input ramp output baseGain rampGain n accumulate alignment =>
    refine iff_of_true ?_ trivial
    refine (vectorRampScaling_eq h).trans ?_
    rw [Call.reference, applyOn_start]
    rfl

/-- Five products, the first four of which are stored at an aligned address. -/
theorem run_eq_reference_five :
    (Call.multiplyConstantAddFloat (2 : ℤ) ⟨1, fun k => k⟩ ⟨4, fun _ => 1⟩ 5 0).run
        ⟨true, true, false⟩ =
      .ok (Call.multiplyConstantAddFloat (2 : ℤ) ⟨1, fun k => k⟩ ⟨4, fun _ => 1⟩ 5 0).reference :=
  have haddress : (4 % 4 = 0 ∨ remaining ⟨true, true, false⟩ 5 < 4) := Or.inl rfl
  (run_eq_reference_iff ⟨true, true, false⟩
    (Call.multiplyConstantAddFloat (2 : ℤ) ⟨1, fun k => k⟩ ⟨4, fun _ => 1⟩ 5 0)
    ⟨by decide, fun _ _ => rfl⟩).mpr haddress

/-- Without a guaranteed alignment, the store of a block may not be executed. -/
theorem multiplyConstantAdd_unaligned :
    (Call.multiplyConstantAddFloat (2 : ℤ) ⟨0, fun k => k⟩ ⟨1, fun _ => 1⟩ 4 0).Admissible ∧
      (Call.multiplyConstantAddFloat (2 : ℤ) ⟨0, fun k => k⟩ ⟨1, fun _ => 1⟩ 4 0).run
          ⟨true, true, false⟩ ≠ .ok
        (Call.multiplyConstantAddFloat (2 : ℤ) ⟨0, fun k => k⟩ ⟨1, fun _ => 1⟩ 4 0).reference := by
  refine ⟨⟨by decide, fun _ _ => rfl⟩, ?_⟩
  have herror : (Call.multiplyConstantAddFloat (2 : ℤ) ⟨0, fun k => k⟩ ⟨1, fun _ => 1⟩ 4 0).run
      ⟨true, true, false⟩ = .error .unalignedAccess := rfl
  rw [herror]
  nofun

end IntelX86_64

end Visr
