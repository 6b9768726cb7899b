import Mathlib.Algebra.Group.Defs
import Mathlib.Data.List.Basic
import Mathlib.Data.Nat.Notation

/-!
# Signals and their past

A discrete-time signal is a function on the natural numbers.  Before its first
sample it is taken to be zero.

## Main definitions

* `Signal.past x t a` — the sample of `x` that is `a` steps older than time `t`.
* `Signal.continued x t y` — the signal that goes on with another one.
* `Signal.ofList xs` — the signal that starts with the samples of a list.
* `Signal.latest xs d` — the last `d` samples of a list.
-/

namespace Signal

variable {α : Type*} [Zero α]

/-- The sample of `x` that is `a` steps older than time `t`; zero before the start. -/
def past (x : ℕ → α) (t a : ℕ) : α := if a ≤ t then x (t - a) else 0

theorem past_of_le (x : ℕ → α) {t a : ℕ} (h : a ≤ t) : past x t a = x (t - a) := if_pos h

theorem past_of_lt (x : ℕ → α) {t a : ℕ} (h : t < a) : past x t a = 0 :=
  if_neg (Nat.not_le.mpr h)

@[simp] theorem past_zero_right (x : ℕ → α) (t : ℕ) : past x t 0 = x t :=
  past_of_le x (Nat.zero_le t)

/-- Moving the time along with the age does not change the sample. -/
@[simp] theorem past_add_add (x : ℕ → α) (t a n : ℕ) : past x (t + n) (a + n) = past x t a := by
  unfold past
  rw [Nat.add_sub_add_right]
  by_cases h : a ≤ t
  · rw [if_pos h, if_pos (by omega)]
  · rw [if_neg h, if_neg (by omega)]

/-- The past consists of earlier samples. -/
theorem past_congr {x y : ℕ → α} {t a : ℕ} (h : ∀ n, n < t → x n = y n) (ha : 0 < a) :
    past x t a = past y t a := by
  unfold past
  split
  next hle => exact h _ (by omega)
  · rfl

/-- The signal that goes on with another one from some time. -/
def continued (x : ℕ → α) (t : ℕ) (y : ℕ → α) (n : ℕ) : α := if n < t then x n else y (n - t)

omit [Zero α] in
theorem continued_of_lt (x y : ℕ → α) {t n : ℕ} (h : n < t) : continued x t y n = x n := if_pos h

omit [Zero α] in
@[simp] theorem continued_add (x y : ℕ → α) (t k : ℕ) : continued x t y (t + k) = y k := by
  rw [continued, if_neg (by omega), Nat.add_sub_cancel_left]

/-! ### Recorded samples -/

/-- The signal that starts with the samples of a list. -/
def ofList (xs : List α) (t : ℕ) : α := xs.getD t 0

/-- The last `d` samples of a list, with zeros for the time before its first one. -/
def latest (xs : List α) (d : ℕ) : List α := (List.replicate d 0 ++ xs).drop xs.length

theorem ofList_append_of_lt {xs : List α} {t : ℕ} (h : t < xs.length) (ys : List α) :
    ofList (xs ++ ys) t = ofList xs t := by
  simp [ofList, List.getElem?_append_left h]

@[simp] theorem ofList_append_length (xs ys : List α) (k : ℕ) :
    ofList (xs ++ ys) (xs.length + k) = ofList ys k := by
  simp [ofList, List.getElem?_append_right]

@[simp] theorem length_latest (xs : List α) (d : ℕ) : (latest xs d).length = d := by
  simp [latest]

/-- What was recorded is found again in the past of the end. -/
theorem latest_eq_map_past (xs : List α) (d : ℕ) :
    latest xs d = (List.range d).map fun k => past (ofList xs) xs.length (d - k) := by
  refine List.ext_getElem (by simp) fun k hk _ => ?_
  have hkd : k < d := by simpa using hk
  simp only [latest, List.getElem_drop, List.getElem_map, List.getElem_range]
  by_cases hpast : d - k ≤ xs.length
  · have hlt : xs.length - (d - k) < xs.length := by omega
    rw [List.getElem_append_right (by simp; omega), past_of_le _ hpast, ofList]
    simp only [List.length_replicate, List.getD_eq_getElem?_getD, List.getElem?_eq_getElem hlt,
      Option.getD_some]
    congr 1
    omega
  · rw [List.getElem_append_left (by simp; omega), past_of_lt _ (by omega), List.getElem_replicate]

end Signal
