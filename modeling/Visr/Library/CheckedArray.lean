import Mathlib.Data.List.OfFn
import Mathlib.Logic.Function.Basic

/-!
# Arrays with checked accesses

A local array of fixed size, whose elements are not initialised before they have been written.
Accesses outside of the array and reads of elements that are not initialised fail.

## Main definitions

* `CheckedArray` — the elements.
* `CheckedArray.uninitialised`, `CheckedArray.read`, `CheckedArray.write` — the operations.
* `CheckedArray.tabulate` — an array whose elements are given by a function.

## Main results

* `CheckedArray.read_tabulate`, `CheckedArray.write_tabulate` — accesses inside of an array.
-/

/-- The elements of an array, as far as they are initialised. -/
abbrev CheckedArray (α : Type*) := List (Option α)

namespace CheckedArray

variable {α : Type*} {n idx : ℕ}

def uninitialised (n : ℕ) : CheckedArray α := List.replicate n none

/-- The array with the values of a vector. -/
def ofVector (v : Fin n → α) : CheckedArray α := List.ofFn fun i => some (v i)

def read (a : CheckedArray α) (idx : ℕ) : Option α := a[idx]?.join

def write (a : CheckedArray α) (idx : ℕ) (value : α) : Option (CheckedArray α) :=
  if idx < a.length then some (a.set idx (some value)) else none

def tabulate (n : ℕ) (f : ℕ → Option α) : CheckedArray α := (List.range n).map f

@[simp] theorem length_tabulate (n : ℕ) (f : ℕ → Option α) : (tabulate n f).length = n := by
  rw [tabulate, List.length_map, List.length_range]

theorem tabulate_congr {f g : ℕ → Option α} (h : ∀ i < n, f i = g i) :
    tabulate n f = tabulate n g :=
  List.map_congr_left fun i hi => h i (List.mem_range.mp hi)

theorem uninitialised_eq (n : ℕ) :
    (uninitialised n : CheckedArray α) = tabulate n fun _ => none := by
  rw [uninitialised, tabulate, List.map_const', List.length_range]

theorem ofVector_eq (v : Fin n → α) {f : ℕ → α} (h : ∀ i : Fin n, f i = v i) :
    ofVector v = tabulate n fun i => some (f i) := by
  refine List.ext_getElem (by simp [ofVector]) fun i hi _ => ?_
  simp [ofVector, tabulate, ← h]

theorem read_tabulate (f : ℕ → Option α) (h : idx < n) : (tabulate n f).read idx = f idx := by
  rw [read, tabulate, List.getElem?_map, List.getElem?_range h]
  rfl

theorem write_tabulate (f : ℕ → Option α) (h : idx < n) (value : α) :
    (tabulate n f).write idx value = some (tabulate n (Function.update f idx (some value))) := by
  rw [write, if_pos (by simpa using h)]
  refine congrArg some (List.ext_getElem (by simp) fun i hi _ => ?_)
  rw [List.getElem_set]
  split
  next heq => simp [tabulate, ← heq]
  next hne => simp [tabulate, Function.update_of_ne (Ne.symm hne)]

end CheckedArray
