import Mathlib.Algebra.BigOperators.Fin
import Visr.Library.CheckedArray
import Visr.Library.Interpolation

/-!
# Products without one factor

The coefficients of the Lagrange interpolator need, for each of some numbers, the product of all
others.  They are computed in place, by a recursion on the products of neighbours.

## Main results

* `Efl.LagrangeCoefficientCalculator.products_eq`, `Efl.LagrangeCoefficientCalculator.shuffle_eq` —
  the loops before and after the recursion.
* `Efl.LagrangeCoefficientCalculator.multiplyAndShuffle_products` — **each number is replaced by
  the product of the others**.
-/

namespace Visr

namespace Efl

namespace LagrangeCoefficientCalculator

variable {K : Type*} [CommRing K]

/-! ### The recursion -/

/-- The first loop: the products of the first `n` pairs. -/
def multiplyPairs (coeffs : CheckedArray K) :
    ℕ → CheckedArray K → Option (CheckedArray K)
  | 0, prod => some prod
  | idx + 1, prod => do
    let prod ← multiplyPairs coeffs idx prod
    let first ← coeffs.read (2 * idx)
    let second ← coeffs.read (2 * idx + 1)
    prod.write idx (first * second)

/-- The second loop, which overwrites the first `n` pairs. -/
def shufflePairs (prod : CheckedArray K) : ℕ → CheckedArray K → Option (CheckedArray K)
  | 0, coeffs => some coeffs
  | idx + 1, coeffs => do
    let coeffs ← shufflePairs prod idx coeffs
    let second ← coeffs.read (2 * idx + 1)
    let tmp := second * (← prod.read idx)
    let first ← coeffs.read (2 * idx)
    let coeffs ← coeffs.write (2 * idx + 1) (first * (← prod.read idx))
    coeffs.write (2 * idx) tmp

/-- The array `prod`, to which the last element of an odd number is copied. -/
def products (length : ℕ) (coeffs : CheckedArray K) : Option (CheckedArray K) := do
  let pairs := length / 2
  let prod ← multiplyPairs coeffs pairs (.uninitialised ((length + 1) / 2))
  if length % 2 ≠ 0 then prod.write pairs (← coeffs.read (2 * pairs))
  else some prod

def shuffle (length : ℕ) (prod coeffs : CheckedArray K) : Option (CheckedArray K) := do
  let pairs := length / 2
  let coeffs ← shufflePairs prod pairs coeffs
  if length % 2 ≠ 0 then coeffs.write (length - 1) (← prod.read pairs)
  else some coeffs

/-- The assertion fails for an empty array. -/
def multiplyAndShuffle (length : ℕ) (coeffs : CheckedArray K) : Option (CheckedArray K) :=
  if 2 < length then do
    let prod ← products length coeffs
    let prod ← multiplyAndShuffle ((length + 1) / 2) prod
    shuffle length prod coeffs
  else if length = 2 then do
    let first ← coeffs.read 0
    let second ← coeffs.read 1
    let coeffs ← coeffs.write 0 second
    coeffs.write 1 first
  else if length = 1 then coeffs.write 0 1
  else none

/-! ### The loops -/

open CheckedArray

/-- An array of numbers, all of which are initialised. -/
def numbers (n : ℕ) (f : ℕ → K) : CheckedArray K := tabulate n fun i => some (f i)

section Loops

variable {n length pairs : ℕ} {f : ℕ → K}

omit [CommRing K] in
theorem numbers_congr {g : ℕ → K} (h : ∀ i < n, f i = g i) : numbers n f = numbers n g :=
  tabulate_congr fun i hi => congrArg some (h i hi)

omit [CommRing K] in
theorem read_numbers {idx : ℕ} (h : idx < n) : (numbers n f).read idx = some (f idx) :=
  read_tabulate _ h

omit [CommRing K] in
theorem write_numbers {idx : ℕ} (h : idx < n) (value : K) :
    (numbers n f).write idx value = some (numbers n (Function.update f idx value)) := by
  rw [numbers, write_tabulate _ h]
  refine congrArg some (tabulate_congr fun i _ => ?_)
  by_cases hi : i = idx
  · rw [hi, Function.update_self, Function.update_self]
  · rw [Function.update_of_ne hi, Function.update_of_ne hi]

/-- The products of the first pairs; the rest of the array is not initialised. -/
theorem multiplyPairs_eq (hn : 2 * n ≤ length) (hpairs : n ≤ pairs) :
    multiplyPairs (numbers length f) n (uninitialised pairs) =
      some (tabulate pairs fun i => if i < n then some (f (2 * i) * f (2 * i + 1)) else none) := by
  induction n with
  | zero => rw [multiplyPairs, uninitialised_eq]; rfl
  | succ n ih =>
    rw [multiplyPairs, ih (by omega) (by omega), read_numbers (by omega), read_numbers (by omega)]
    dsimp only [Option.bind_eq_bind, Option.bind_some]
    rw [write_tabulate _ (by omega)]
    refine congrArg some (tabulate_congr fun i _ => ?_)
    by_cases hi : i = n
    · rw [hi, Function.update_self, if_pos (by omega)]
    · rw [Function.update_of_ne hi]
      by_cases hlt : i < n
      · rw [if_pos hlt, if_pos (by omega)]
      · rw [if_neg hlt, if_neg (by omega)]

/-- The first pairs are overwritten.  Each of them is read before it is written. -/
theorem shufflePairs_eq {p : ℕ → K} (hn : 2 * n ≤ length) (hpairs : n ≤ pairs) :
    shufflePairs (numbers pairs p) n (numbers length f) =
      some (numbers length fun i => if i < 2 * n then f (neighbour i) * p (i / 2) else f i) := by
  induction n with
  | zero => rfl
  | succ n ih =>
    rw [shufflePairs, ih (by omega) (by omega), read_numbers (show n < pairs by omega)]
    dsimp only [Option.bind_eq_bind, Option.bind_some]
    rw [read_numbers (by omega), read_numbers (by omega)]
    dsimp only [Option.bind_eq_bind, Option.bind_some]
    rw [write_numbers (by omega), Option.bind_some, write_numbers (by omega)]
    rw [if_neg (by omega), if_neg (by omega)]
    refine congrArg some (numbers_congr fun i _ => ?_)
    by_cases hfirst : i = 2 * n
    · have hhalf : i / 2 = n := by omega
      rw [hhalf, hfirst, Function.update_self, if_pos (by omega), neighbour, if_pos (by omega)]
    · rw [Function.update_of_ne hfirst]
      by_cases hsecond : i = 2 * n + 1
      · have hhalf : i / 2 = n := by omega
        rw [hhalf, hsecond, Function.update_self, if_pos (by omega), neighbour, if_neg (by omega),
          Nat.add_sub_cancel]
      · rw [Function.update_of_ne hsecond]
        by_cases hlt : i < 2 * n
        · rw [if_pos hlt, if_pos (by omega)]
        · rw [if_neg hlt, if_neg (by omega)]

/-- The elements of `prod` are the products of neighbours. -/
theorem products_eq (length : ℕ) (f : ℕ → K) :
    products length (numbers length f) =
      some (numbers ((length + 1) / 2) (pairProduct length f)) := by
  unfold products
  dsimp only
  rw [multiplyPairs_eq (by omega) (by omega)]
  dsimp only [Option.bind_eq_bind, Option.bind_some]
  split
  next hodd =>
    rw [read_numbers (by omega), Option.bind_some, write_tabulate _ (by omega)]
    refine congrArg some (tabulate_congr fun i hi => ?_)
    by_cases hlast : i = length / 2
    · rw [hlast, Function.update_self, pairProduct, if_neg (by omega)]
    · rw [Function.update_of_ne hlast, if_pos (by omega), pairProduct, if_pos (by omega)]
  next heven =>
    refine congrArg some (tabulate_congr fun i hi => ?_)
    rw [if_pos (by omega), pairProduct, if_pos (by omega)]

/-- What the products without one pair are used for. -/
theorem shuffle_eq (length : ℕ) (f : ℕ → K) :
    shuffle length
        (numbers ((length + 1) / 2) (prodOthers ((length + 1) / 2) (pairProduct length f)))
        (numbers length f) =
      some (numbers length (prodOthers length f)) := by
  unfold shuffle
  dsimp only
  rw [shufflePairs_eq (by omega) (by omega)]
  dsimp only [Option.bind_eq_bind, Option.bind_some]
  split
  next hodd =>
    rw [read_numbers (by omega), Option.bind_some, write_numbers (by omega)]
    refine congrArg some (numbers_congr fun i hi => ?_)
    by_cases hlast : i = length - 1
    · have htwice : length - 1 = 2 * (length / 2) := by omega
      rw [hlast, Function.update_self, htwice, prodOthers_eq_of_odd (by omega)]
    · rw [Function.update_of_ne hlast, if_pos (by omega), ← prodOthers_eq (by omega)]
  next heven =>
    refine congrArg some (numbers_congr fun i hi => ?_)
    rw [if_pos (by omega), ← prodOthers_eq (by omega)]

end Loops

/-! ### The result -/

/-- By induction on the length, which the recursion halves. -/
theorem multiplyAndShuffle_numbers {length : ℕ} (h : 1 ≤ length) (f : ℕ → K) :
    multiplyAndShuffle length (numbers length f) =
      some (numbers length (prodOthers length f)) := by
  induction length using Nat.strong_induction_on generalizing f with
  | _ length ih =>
    unfold multiplyAndShuffle
    split
    next hlong =>
      rw [products_eq, Option.bind_eq_bind, Option.bind_some, ih _ (by omega) (by omega),
        Option.bind_some, shuffle_eq]
    next hshort =>
      split
      next htwo =>
        subst htwo
        rw [read_numbers (by omega), read_numbers (by omega)]
        dsimp only [Option.bind_eq_bind, Option.bind_some]
        rw [write_numbers (by omega), Option.bind_some, write_numbers (by omega)]
        refine congrArg some (numbers_congr fun i hi => ?_)
        obtain rfl | rfl : i = 0 ∨ i = 1 := by omega
        · simp [prodOthers, Finset.prod_range_succ]
        · simp [prodOthers, Finset.prod_range_succ]
      next hne =>
        have hone : length = 1 := by omega
        rw [if_pos hone, write_numbers (by omega), hone]
        refine congrArg some (numbers_congr fun i hi => ?_)
        obtain rfl : i = 0 := by omega
        simp [prodOthers]

/-- **Each number is replaced by the product of the others.** -/
theorem multiplyAndShuffle_products {length : ℕ} (h : 1 ≤ length) (coeffs : Fin length → K) :
    multiplyAndShuffle length (ofVector coeffs) =
      some (ofVector fun i => ∏ j ∈ Finset.univ.erase i, coeffs j) := by
  let f : ℕ → K := fun j => if hj : j < length then coeffs ⟨j, hj⟩ else 1
  have hf : ∀ i : Fin length, f i = coeffs i := fun i => dif_pos i.isLt
  rw [ofVector_eq coeffs hf]
  refine (multiplyAndShuffle_numbers h f).trans (congrArg some (ofVector_eq _ fun i => ?_).symm)
  rw [prodOthers, Finset.prod_range, ← Finset.filter_ne', Finset.prod_filter]
  refine Finset.prod_congr rfl fun j _ => ?_
  simp only [hf, ne_eq, Fin.ext_iff]

theorem multiplyAndShuffle_products_five :
    multiplyAndShuffle 5 (ofVector (![2, 3, 5, 7, 11] : Fin 5 → ℤ)) =
      some [some 1155, some 770, some 462, some 330, some 210] := by
  rw [multiplyAndShuffle_products (by decide)]
  decide

end LagrangeCoefficientCalculator

end Efl

end Visr
