import Mathlib.Data.List.Basic

/-!
# Filters in series

Machines with a state that turn one sample after the other into a sample, several of which are
applied to a signal one after the other.

## Main definitions

* `Cascade.run` — one machine on a signal.
* `Cascade.passes`, `Cascade.after` — the signal behind the first machines, and their states.

## Main results

* `Cascade.run_append` — a machine goes on where it has stopped.
* `Cascade.passes_append`, `Cascade.after_append` — **so do machines in series**.
-/

namespace Cascade

variable {S α : Type*}

/-- The samples that a machine yields for a signal, and its state at the end. -/
def run (step : S → α → α × S) : S → List α → List α × S
  | s, [] => ([], s)
  | s, x :: xs =>
    let r := step s x
    let rest := run step r.2 xs
    (r.1 :: rest.1, rest.2)

theorem run_append (step : S → α → α × S) (s : S) (xs ys : List α) :
    run step s (xs ++ ys) =
      ((run step s xs).1 ++ (run step (run step s xs).2 ys).1,
        (run step (run step s xs).2 ys).2) := by
  induction xs generalizing s with
  | nil => rfl
  | cons x xs ih => simp only [List.cons_append, run, ih]

theorem run_concat (step : S → α → α × S) (s : S) (xs : List α) (x : α) :
    run step s (xs ++ [x]) =
      ((run step s xs).1 ++ [(step (run step s xs).2 x).1], (step (run step s xs).2 x).2) :=
  run_append step s xs [x]

/-- The signal behind the first machines of a series. -/
def passes (step : ℕ → S → α → α × S) (s : ℕ → S) : ℕ → List α → List α
  | 0, xs => xs
  | k + 1, xs => (run (step k) (s k) (passes step s k xs)).1

/-- The state of each machine after a signal. -/
def after (step : ℕ → S → α → α × S) (s : ℕ → S) (xs : List α) (k : ℕ) : S :=
  (run (step k) (s k) (passes step s k xs)).2

/-- **Machines in series** go on where they have stopped. -/
theorem passes_append (step : ℕ → S → α → α × S) (s : ℕ → S) (k : ℕ) (xs ys : List α) :
    passes step s k (xs ++ ys) = passes step s k xs ++ passes step (after step s xs) k ys := by
  induction k with
  | zero => rfl
  | succ k ih => rw [passes, ih, run_append, passes, passes, after]

theorem after_append (step : ℕ → S → α → α × S) (s : ℕ → S) (xs ys : List α) :
    after step s (xs ++ ys) = after step (after step s xs) ys := by
  funext k
  rw [after, passes_append, run_append, after, after]

/-- Only the states of the machines themselves matter. -/
theorem passes_congr {step : ℕ → S → α → α × S} {s s' : ℕ → S} {k : ℕ} (h : ∀ j < k, s j = s' j)
    (xs : List α) : passes step s k xs = passes step s' k xs := by
  induction k with
  | zero => rfl
  | succ k ih =>
    rw [passes, passes, h k (Nat.lt_succ_self k),
      ih fun j hj => h j (Nat.lt_succ_of_lt hj)]

theorem after_congr {step : ℕ → S → α → α × S} {s s' : ℕ → S} {k : ℕ} (h : ∀ j ≤ k, s j = s' j)
    (xs : List α) : after step s xs k = after step s' xs k := by
  rw [after, after, h k (Nat.le_refl k), passes_congr fun j hj => h j (Nat.le_of_lt hj)]

end Cascade
