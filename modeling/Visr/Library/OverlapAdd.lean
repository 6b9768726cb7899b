import Mathlib.Algebra.BigOperators.Intervals
import Mathlib.Algebra.BigOperators.Ring.Finset
import Mathlib.Algebra.Order.BigOperators.Group.Finset
import Mathlib.Tactic.Ring
import Visr.Library.Signal

/-!
# Overlap-add

Frames of a common length that are added with an offset of one hop from one to the next.

## Main definitions

* `OverlapAdd.overlapAdd` — the sum of all frames.
* `OverlapAdd.leading` — the sum of the first frames.
* `OverlapAdd.Accumulates` — what a buffer has to keep from the frames so far.
* `OverlapAdd.ConstantOverlap` — a window whose shifts by one hop add up to a constant.

## Main results

* `OverlapAdd.Accumulates.step` — adding the next frame and shifting by a hop.
* `OverlapAdd.leading_eq_overlapAdd` — the sum is final before the next frame begins.
* `OverlapAdd.overlapAdd_windowed` — the windowed frames of a signal add up to the signal.
-/

namespace OverlapAdd

open Finset

open Signal (past)

variable {R : Type*} [CommRing R]

/-- The contribution of the frame with the number `m` to a sample. -/
def contribution (hop size : ℕ) (frame : ℕ → ℕ → R) (m n : ℕ) : R :=
  if m * hop ≤ n ∧ n < m * hop + size then frame m (n - m * hop) else 0

/-- The sum of the first `M` frames. -/
def leading (hop size : ℕ) (frame : ℕ → ℕ → R) (M n : ℕ) : R :=
  ∑ m ∈ range M, contribution hop size frame m n

/-- The sum of all frames that contain a sample; none of them has a number above it. -/
def overlapAdd (hop size : ℕ) (frame : ℕ → ℕ → R) (n : ℕ) : R :=
  ∑ m ∈ range (n + 1) with m * hop ≤ n ∧ n < m * hop + size, frame m (n - m * hop)

variable {hop size : ℕ} {frame : ℕ → ℕ → R}

theorem overlapAdd_eq_leading (n : ℕ) :
    overlapAdd hop size frame n = leading hop size frame (n + 1) n :=
  Finset.sum_filter _ _

theorem leading_succ (M n : ℕ) :
    leading hop size frame (M + 1) n =
      leading hop size frame M n + contribution hop size frame M n :=
  Finset.sum_range_succ _ _

/-- **The sum is final** before the next frame begins. -/
theorem leading_eq_overlapAdd (hhop : 0 < hop) {M n : ℕ} (hn : n < M * hop) :
    leading hop size frame M n = overlapAdd hop size frame n := by
  rw [overlapAdd_eq_leading]
  have hzero : ∀ m, n < m * hop → contribution hop size frame m n = 0 := fun m hm =>
    if_neg (by omega)
  have hle : ∀ A B, A ≤ B → n < A * hop →
      leading hop size frame A n = leading hop size frame B n := by
    intro A B hAB hA
    refine Finset.sum_subset (Finset.range_mono hAB) fun m _ hm => hzero m ?_
    have hAm : A ≤ m := Nat.le_of_not_lt fun h => hm (Finset.mem_range.mpr h)
    exact hA.trans_le (Nat.mul_le_mul_right hop hAm)
  have hsucc : n < (n + 1) * hop := by
    calc n < n + 1 := Nat.lt_succ_self n
      _ ≤ (n + 1) * hop := Nat.le_mul_of_pos_right _ hhop
  rcases Nat.le_total M (n + 1) with h | h
  · exact hle M (n + 1) h hn
  · exact (hle (n + 1) M h hsucc).symm

/-- The first frames end before a hop after the last one of them. -/
theorem leading_eq_zero {M i : ℕ} (hi : size ≤ hop + i) :
    leading hop size frame M (M * hop + i) = 0 := by
  refine Finset.sum_eq_zero fun m hm => if_neg ?_
  have hle : (m + 1) * hop ≤ M * hop := Nat.mul_le_mul_right hop (Finset.mem_range.mp hm)
  rw [Nat.add_mul, Nat.one_mul] at hle
  omega

theorem overlapAdd_congr {frame' : ℕ → ℕ → R} (h : ∀ m n, n < size → frame m n = frame' m n)
    (n : ℕ) : overlapAdd hop size frame n = overlapAdd hop size frame' n := by
  refine Finset.sum_congr rfl fun m hm => h m _ ?_
  have := (Finset.mem_filter.mp hm).2
  omega

theorem overlapAdd_mul_left (c : R) (n : ℕ) :
    overlapAdd hop size (fun m k => c * frame m k) n = c * overlapAdd hop size frame n :=
  (Finset.mul_sum _ _ _).symm

/-! ### The accumulation buffer -/

/-- A buffer keeps what the first `M` frames contribute behind the next hop. -/
def Accumulates (hop size : ℕ) (frame : ℕ → ℕ → R) (M : ℕ) (buffer : ℕ → R) : Prop :=
  ∀ i, i < size - hop → buffer i = leading hop size frame M (M * hop + i)

theorem accumulates_zero {buffer : ℕ → R} (h : ∀ i, buffer i = 0) :
    Accumulates hop size frame 0 buffer := fun i _ => h i

/-- The sum of the next frame and the buffer. -/
theorem Accumulates.sum {M : ℕ} {buffer : ℕ → R} (h : Accumulates hop size frame M buffer)
    {i : ℕ} (hi : i < size) :
    (if i < size - hop then frame M i + buffer i else frame M i) =
      leading hop size frame (M + 1) (M * hop + i) := by
  have hnext : contribution hop size frame M (M * hop + i) = frame M i := by
    rw [contribution, if_pos (by omega), Nat.add_sub_cancel_left]
  rw [leading_succ, hnext]
  by_cases hshort : i < size - hop
  · rw [if_pos hshort, h i hshort, add_comm]
  · rw [if_neg hshort, leading_eq_zero (by omega), zero_add]

/-- **The next frame**: the sum with the buffer is shifted by a hop. -/
theorem Accumulates.step {M : ℕ} {buffer buffer' : ℕ → R}
    (h : Accumulates hop size frame M buffer)
    (hbuffer' : ∀ i, i < size - hop → buffer' i =
      if hop + i < size - hop then frame M (hop + i) + buffer (hop + i) else frame M (hop + i)) :
    Accumulates hop size frame (M + 1) buffer' := by
  intro i hi
  have hindex : (M + 1) * hop + i = M * hop + (hop + i) := by ring
  rw [hbuffer' i hi, h.sum (by omega), hindex]

/-! ### Windows -/

/-- The window has `count` hops, and its shifts by one hop add up to a constant. -/
def ConstantOverlap (hop count : ℕ) (window : ℕ → R) (c : R) : Prop :=
  ∀ r < hop, ∑ q ∈ range count, window (r + q * hop) = c

theorem ConstantOverlap.mul_left {count : ℕ} {window : ℕ → R} {c : R}
    (h : ConstantOverlap hop count window c) (factor : R) :
    ConstantOverlap hop count (fun k => factor * window k) (factor * c) := by
  intro r hr
  rw [← Finset.mul_sum, h r hr]

/-- A frame of a signal: the samples before its end, multiplied with the window. -/
def windowedFrame (hop length : ℕ) (window x : ℕ → R) (m k : ℕ) : R :=
  if k < length then past x ((m + 1) * hop) (length - k) * window k else 0

/-- All frames with a sample multiply the same sample of the signal. -/
theorem contribution_windowed {length : ℕ} (hsize : length ≤ size) (window x : ℕ → R) {m n : ℕ}
    (hm : m * hop ≤ n) :
    contribution hop size (windowedFrame hop length window x) m n =
      if n - m * hop < length then past x (n + hop) length * window (n - m * hop) else 0 := by
  unfold contribution windowedFrame
  by_cases hlt : n - m * hop < length
  · have hshift : past x ((m + 1) * hop) (length - (n - m * hop)) = past x (n + hop) length := by
      rw [← Signal.past_add_add x _ _ (n - m * hop)]
      congr 1
      · rw [Nat.succ_mul]
        omega
      · omega
    rw [if_pos ⟨hm, by omega⟩, if_pos hlt, hshift, if_pos hlt]
  · rw [if_neg hlt, if_neg hlt, ite_self]

/-- **The frames add up to the signal**, which is delayed by the length of the window less one
hop. -/
theorem overlapAdd_windowed (hhop : 0 < hop) {count : ℕ} {window : ℕ → R} {c : R}
    (h : ConstantOverlap hop count window c) (hsize : count * hop ≤ size) (x : ℕ → R) (n : ℕ) :
    overlapAdd hop size (windowedFrame hop (count * hop) window x) n =
      c * past x (n + hop) (count * hop) := by
  have hdivision : n / hop * hop + n % hop = n := Nat.div_add_mod' n hop
  have hrest : n % hop < hop := Nat.mod_lt n hhop
  generalize n / hop = d at hdivision
  generalize n % hop = r at hdivision hrest
  have hbefore : n < (d + 1) * hop := by
    rw [Nat.succ_mul]
    omega
  -- the frames from the last one on, in descending order
  have hframe : ∀ q < d + 1,
      contribution hop size (windowedFrame hop (count * hop) window x) (d + 1 - 1 - q) n =
        if q < count then past x (n + hop) (count * hop) * window (r + q * hop) else 0 := by
    intro q hq
    have hposition : (d - q) * hop + q * hop = d * hop := by
      rw [← Nat.add_mul, Nat.sub_add_cancel (by omega)]
    have hindex : n - (d - q) * hop = r + q * hop := by omega
    have hinside : r + q * hop < count * hop ↔ q < count := by
      constructor
      · intro hlt
        exact Nat.lt_of_mul_lt_mul_right (Nat.lt_of_le_of_lt (Nat.le_add_left _ r) hlt)
      · intro hlt
        have hle := Nat.mul_le_mul_right hop hlt
        rw [Nat.succ_mul] at hle
        omega
    rw [Nat.add_sub_cancel, contribution_windowed hsize window x (by omega), hindex]
    simp only [hinside]
  rw [← leading_eq_overlapAdd hhop hbefore, leading, ← Finset.sum_range_reflect,
    Finset.sum_congr rfl fun q hq => hframe q (Finset.mem_range.mp hq)]
  rcases Nat.lt_or_ge (n + hop) (count * hop) with hearly | hlate
  · simp [Signal.past_of_lt x hearly]
  · have hcount : count ≤ d + 1 := by
      refine Nat.le_of_lt_succ (Nat.lt_of_mul_lt_mul_right (a := hop) ?_)
      rw [Nat.succ_mul]
      omega
    have hsum := h r hrest
    calc (∑ q ∈ range (d + 1),
          if q < count then past x (n + hop) (count * hop) * window (r + q * hop) else 0)
        = ∑ q ∈ range count, past x (n + hop) (count * hop) * window (r + q * hop) := by
          rw [← Finset.sum_filter]
          congr 1
          ext q
          simp only [Finset.mem_filter, Finset.mem_range]
          omega
      _ = c * past x (n + hop) (count * hop) := by
          rw [← Finset.mul_sum, hsum, mul_comm]

end OverlapAdd
