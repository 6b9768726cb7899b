import Mathlib.LinearAlgebra.Lagrange

/-!
# Interpolation with equidistant or other nodes

The weights of Lagrange interpolation are products in which one factor is left out.

## Main definitions

* `leaveOneOut l` — for each element of a list, the product of the others.
* `prodOthers n f i` — the product of all members of a family but one.
* `pairProduct n f` — the products of neighbours.
* `lagrangeWeight n nodes i x` — the weight of node `i` out of `n` at the point `x`.

## Main results

* `leaveOneOut_cons_cons` — two elements may be replaced by their product.
* `prodOthers_eq`, `prodOthers_eq_of_odd` — a family may be replaced by the products of neighbours.
* `sum_lagrangeWeight` — interpolation is exact on polynomials.
-/

/-! ### Products without one factor -/

section LeaveOneOut

variable {M : Type*} [CommMonoid M]

/-- The products of all elements but one. -/
def leaveOneOut : List M → List M
  | [] => []
  | a :: l => l.prod :: (leaveOneOut l).map (a * ·)

@[simp] theorem leaveOneOut_nil : leaveOneOut ([] : List M) = [] := rfl

@[simp] theorem leaveOneOut_cons (a : M) (l : List M) :
    leaveOneOut (a :: l) = l.prod :: (leaveOneOut l).map (a * ·) := rfl

/-- From the products for a list in which two elements are replaced by their product. -/
theorem leaveOneOut_cons_cons {a b p : M} {l q : List M}
    (h : leaveOneOut (a * b :: l) = p :: q) :
    leaveOneOut (a :: b :: l) = b * p :: a * p :: q := by
  rw [leaveOneOut_cons, List.cons.injEq] at h
  obtain ⟨rfl, rfl⟩ := h
  simp [Function.comp_def, mul_assoc]

/-- The products for an indexed family. -/
theorem leaveOneOut_map_range (n : ℕ) (f : ℕ → M) :
    leaveOneOut ((List.range n).map f) =
      (List.range n).map fun i => ∏ j ∈ Finset.range n, if j ≠ i then f j else 1 := by
  induction n generalizing f with
  | zero => rfl
  | succ n ih =>
    rw [List.range_succ_eq_map, List.map_cons, List.map_map, leaveOneOut_cons, ih,
      List.map_cons, List.map_map, List.map_map]
    congr 1
    · -- the first element
      have hprod : ((List.range n).map (f ∘ Nat.succ)).prod =
          ∏ j ∈ Finset.range n, f (j + 1) := rfl
      rw [hprod, Finset.prod_range_succ']
      simp
    · apply List.map_congr_left
      intro i _
      simp [Finset.prod_range_succ', mul_comm]

/-- The product of the first members of a family but one. -/
def prodOthers (n : ℕ) (f : ℕ → M) (i : ℕ) : M := ∏ j ∈ Finset.range n, if j ≠ i then f j else 1

/-- The products of neighbours.  The last member of an odd number has none. -/
def pairProduct (n : ℕ) (f : ℕ → M) (i : ℕ) : M :=
  if 2 * i + 1 < n then f (2 * i) * f (2 * i + 1) else f (2 * i)

def neighbour (i : ℕ) : ℕ := if i % 2 = 0 then i + 1 else i - 1

section PairProducts

variable {n i : ℕ} {f : ℕ → M}

theorem prodOthers_congr {g : ℕ → M} (h : ∀ j < n, f j = g j) :
    prodOthers n f i = prodOthers n g i :=
  Finset.prod_congr rfl fun j hj => by rw [h j (Finset.mem_range.mp hj)]

theorem prodOthers_succ (h : i < n) : prodOthers (n + 1) f i = prodOthers n f i * f n := by
  rw [prodOthers, Finset.prod_range_succ, if_pos h.ne']
  rfl

theorem prodOthers_of_le (h : n ≤ i) : prodOthers n f i = ∏ j ∈ Finset.range n, f j := by
  refine Finset.prod_congr rfl fun j hj => if_pos ?_
  have hlt := Finset.mem_range.mp hj
  omega

theorem prodOthers_last : prodOthers (n + 1) f n = ∏ j ∈ Finset.range n, f j := by
  rw [prodOthers, Finset.prod_range_succ, if_neg (not_not.mpr rfl), mul_one]
  exact prodOthers_of_le le_rfl

theorem prod_pairs (n : ℕ) (f : ℕ → M) :
    ∏ j ∈ Finset.range n, f (2 * j) * f (2 * j + 1) = ∏ j ∈ Finset.range (2 * n), f j := by
  induction n with
  | zero => rfl
  | succ n ih =>
    rw [Finset.prod_range_succ, ih, Nat.mul_succ, Finset.prod_range_succ, Finset.prod_range_succ,
      mul_assoc]

/-- A member is left out by taking its neighbour instead of their product. -/
theorem prodOthers_two_mul (h : i < 2 * n) :
    prodOthers (2 * n) f i =
      f (neighbour i) * prodOthers n (fun j => f (2 * j) * f (2 * j + 1)) (i / 2) := by
  induction n with
  | zero => omega
  | succ n ih =>
    rw [Nat.mul_succ]
    rcases Nat.lt_or_ge i (2 * n) with hlt | hge
    · rw [prodOthers_succ (by omega), prodOthers_succ hlt, ih hlt,
        prodOthers_succ (show i / 2 < n by omega), mul_assoc, mul_assoc]
    · have hhalf : i / 2 = n := by omega
      rw [hhalf, prodOthers_last, prod_pairs]
      obtain rfl | rfl : i = 2 * n ∨ i = 2 * n + 1 := by omega
      · -- the first one of the last pair
        rw [prodOthers_succ (by omega), prodOthers_last, mul_comm, neighbour, if_pos (by omega)]
      · rw [prodOthers_last, Finset.prod_range_succ, mul_comm, neighbour, if_neg (by omega),
          Nat.add_sub_cancel]

/-- **The products without a member that has a neighbour**, from those for the pairs. -/
theorem prodOthers_eq (h : i < 2 * (n / 2)) :
    prodOthers n f i =
      f (neighbour i) * prodOthers ((n + 1) / 2) (pairProduct n f) (i / 2) := by
  have hpairs : ∀ j < n / 2, f (2 * j) * f (2 * j + 1) = pairProduct n f j :=
    fun j hj => (if_pos (by omega)).symm
  rcases Nat.mod_two_eq_zero_or_one n with heven | hodd
  · have hn : n = 2 * (n / 2) := by omega
    have hhalf : (n + 1) / 2 = n / 2 := by omega
    rw [hhalf, ← prodOthers_congr hpairs, ← prodOthers_two_mul h, ← hn]
  · have hn : n = 2 * (n / 2) + 1 := by omega
    have hhalf : (n + 1) / 2 = n / 2 + 1 := by omega
    have hlast : pairProduct n f (n / 2) = f (2 * (n / 2)) := if_neg (by omega)
    rw [hhalf, prodOthers_succ (show i / 2 < n / 2 by omega), ← prodOthers_congr hpairs, hlast,
      ← mul_assoc, ← prodOthers_two_mul h, ← prodOthers_succ h, ← hn]

/-- The product without the last member, which has no neighbour. -/
theorem prodOthers_eq_of_odd (h : n % 2 = 1) :
    prodOthers n f (2 * (n / 2)) = prodOthers ((n + 1) / 2) (pairProduct n f) (n / 2) := by
  have hn : n = 2 * (n / 2) + 1 := by omega
  have hhalf : (n + 1) / 2 = n / 2 + 1 := by omega
  have hpairs : ∀ j ∈ Finset.range (n / 2), pairProduct n f j = f (2 * j) * f (2 * j + 1) :=
    fun j hj => if_pos (by have hlt := Finset.mem_range.mp hj; omega)
  calc prodOthers n f (2 * (n / 2)) = prodOthers (2 * (n / 2) + 1) f (2 * (n / 2)) := by rw [← hn]
    _ = ∏ j ∈ Finset.range (n / 2), pairProduct n f j := by
      rw [prodOthers_last, ← prod_pairs, Finset.prod_congr rfl hpairs]
    _ = prodOthers ((n + 1) / 2) (pairProduct n f) (n / 2) := by rw [hhalf, prodOthers_last]

end PairProducts

end LeaveOneOut

/-! ### Exactness -/

section Lagrange

open Polynomial

variable {K : Type*} [Field K]

/-- The value at `x` of the polynomial that is one at node `i` and zero at the others. -/
def lagrangeWeight (n : ℕ) (nodes : ℕ → K) (i : ℕ) (x : K) : K :=
  ∏ j ∈ Finset.range n, if j ≠ i then (nodes j - x) / (nodes j - nodes i) else 1

theorem eval_basis_eq_lagrangeWeight {n i : ℕ} (nodes : ℕ → K) (hi : i < n) (x : K) :
    (Lagrange.basis (Finset.range n) nodes i).eval x = lagrangeWeight n nodes i x := by
  unfold Lagrange.basis lagrangeWeight Lagrange.basisDivisor
  rw [eval_prod, ← Finset.mul_prod_erase _ _ (Finset.mem_range.mpr hi), if_neg (by simp), one_mul]
  refine Finset.prod_congr rfl fun j hj => ?_
  rw [if_pos (Finset.ne_of_mem_erase hj)]
  simp only [eval_mul, eval_C, eval_sub, eval_X]
  rw [← neg_sub (nodes j) x, ← neg_sub (nodes j) (nodes i), inv_neg, neg_mul_neg, div_eq_inv_mul]

/-- **Interpolation is exact** for polynomials of a degree below the number of nodes. -/
theorem sum_lagrangeWeight {n : ℕ} {nodes : ℕ → K} (hnodes : Function.Injective nodes)
    {p : K[X]} (hp : p.degree < n) (x : K) :
    ∑ i ∈ Finset.range n, lagrangeWeight n nodes i x * p.eval (nodes i) = p.eval x := by
  have hinterpolate := Lagrange.eq_interpolate (s := Finset.range n) (v := nodes) (f := p)
    hnodes.injOn (by simpa using hp)
  conv_rhs => rw [hinterpolate]
  rw [Lagrange.interpolate_apply, eval_finsetSum]
  refine Finset.sum_congr rfl fun i hi => ?_
  rw [eval_mul, eval_C, eval_basis_eq_lagrangeWeight nodes (Finset.mem_range.mp hi), mul_comm]

end Lagrange

/-- The sum of products with one of the lists reversed. -/
theorem sum_zipWith_reverse_map_range {R : Type*} [CommSemiring R] (n : ℕ) (f g : ℕ → R) :
    (List.zipWith (· * ·) ((List.range n).map f).reverse ((List.range n).map g)).sum =
      ∑ i ∈ Finset.range n, f i * g (n - 1 - i) := by
  have hreverse : ((List.range n).map f).reverse =
      (List.range n).map fun i => f (n - 1 - i) := by
    apply List.ext_getElem (by simp)
    intro i _ _
    simp
  rw [hreverse, List.zipWith_map, List.zipWith_self, ← Finset.sum_range_reflect]
  have hsum : ∀ h : ℕ → R, ((List.range n).map h).sum = ∑ i ∈ Finset.range n, h i := fun _ => rfl
  rw [hsum]
  refine Finset.sum_congr rfl fun i hi => ?_
  rw [Nat.sub_sub_self (by have := Finset.mem_range.mp hi; omega)]
