import Mathlib.Data.List.Nodup
import Mathlib.Data.List.Perm.Basic
import Mathlib.Order.Lattice

/-!
# Sets ordered by a key

A search tree whose elements are compared by a key.  There is at most one element with a key, and
whatever else an element consists of plays no role in a search.

## Main definitions

* `KeyedSet key` — elements with increasing keys.
* `KeyedSet.find?`, `KeyedSet.erase`, `KeyedSet.insert?` — the operations.
* `KeyedSet.put` — an element takes the place of the one with its key.

## Main results

* `mem_erase`, `mem_put` — what the operations do to the elements.
* `find?_erase`, `find?_put` — what is found after the operations.
* `ext_mem` — a set is determined by its elements.
-/

/-- The elements of a set, with strictly increasing keys. -/
structure KeyedSet {κ α : Type*} [LinearOrder κ] (key : α → κ) where
  toList : List α
  sorted : toList.Pairwise fun x y => key x < key y

namespace KeyedSet

variable {κ α : Type*} [LinearOrder κ] {key : α → κ}

instance : Membership α (KeyedSet key) := ⟨fun s x => x ∈ s.toList⟩

theorem mem_iff {s : KeyedSet key} {x : α} : x ∈ s ↔ x ∈ s.toList := Iff.rfl

instance [DecidableEq α] (s : KeyedSet key) (x : α) : Decidable (x ∈ s) :=
  inferInstanceAs (Decidable (x ∈ s.toList))

def empty : KeyedSet key := ⟨[], List.Pairwise.nil⟩

@[simp] theorem not_mem_empty (x : α) : x ∉ (empty : KeyedSet key) := List.not_mem_nil

/-- The element with a key. -/
def find? (s : KeyedSet key) (k : κ) : Option α := s.toList.find? fun x => key x = k

/-- Removes the element with a key. -/
def erase (s : KeyedSet key) (k : κ) : KeyedSet key where
  toList := s.toList.filter fun x => key x ≠ k
  sorted := s.sorted.filter _

/-- Puts an element at its place, where it replaces the one with its key. -/
def put (s : KeyedSet key) (x : α) : KeyedSet key where
  toList := s.toList.filter (fun y => key y < key x) ++ x :: s.toList.filter fun y => key x < key y
  sorted := by
    refine List.pairwise_append.mpr ⟨s.sorted.filter _, ?_, ?_⟩
    · refine List.pairwise_cons.mpr ⟨fun y hy => ?_, s.sorted.filter _⟩
      exact of_decide_eq_true (List.mem_filter.mp hy).2
    · intro y hy z hz
      have hlt : key y < key x := of_decide_eq_true (List.mem_filter.mp hy).2
      rcases List.mem_cons.mp hz with rfl | hz
      · exact hlt
      · exact lt_trans hlt (of_decide_eq_true (List.mem_filter.mp hz).2)

/-- Inserts an element, unless there is one with its key. -/
def insert? (s : KeyedSet key) (x : α) : Option (KeyedSet key) :=
  if (s.find? (key x)).isSome then none else some (s.put x)

/-! ### Lookup -/

theorem nodup_keys (s : KeyedSet key) : (s.toList.map key).Nodup :=
  List.pairwise_map.mpr (s.sorted.imp ne_of_lt)

/-- Elements with the same key are the same. -/
theorem eq_of_key {s : KeyedSet key} {x y : α} (hx : x ∈ s) (hy : y ∈ s) (h : key x = key y) :
    x = y :=
  List.inj_on_of_nodup_map s.nodup_keys hx hy h

theorem find?_eq_some_iff {s : KeyedSet key} {k : κ} {x : α} :
    s.find? k = some x ↔ x ∈ s ∧ key x = k := by
  constructor
  · intro h
    exact ⟨List.mem_of_find?_eq_some h, by simpa using List.find?_some h⟩
  · rintro ⟨hx, rfl⟩
    cases hfind : s.find? (key x) with
    | none =>
      have hnone := List.find?_eq_none.mp hfind x hx
      simp at hnone
    | some y =>
      have hy : key y = key x := by simpa using List.find?_some hfind
      rw [eq_of_key (List.mem_of_find?_eq_some hfind) hx hy]

theorem find?_eq_none_iff {s : KeyedSet key} {k : κ} : s.find? k = none ↔ ∀ x ∈ s, key x ≠ k := by
  unfold find?
  rw [List.find?_eq_none]
  simp [mem_iff]

/-- A set is determined by its elements. -/
theorem ext_mem {s s' : KeyedSet key} (h : ∀ x, x ∈ s ↔ x ∈ s') : s = s' := by
  have hperm : s.toList.Perm s'.toList :=
    (List.perm_ext_iff_of_nodup (List.Nodup.of_map key s.nodup_keys)
      (List.Nodup.of_map key s'.nodup_keys)).mpr h
  have heq : s.toList = s'.toList := by
    apply hperm.eq_of_pairwise _ s.sorted s'.sorted
    intro x y _ _ hxy hyx
    exact absurd hyx (lt_asymm hxy)
  cases s
  cases s'
  subst heq
  rfl

/-! ### Changes -/

@[simp] theorem mem_erase {s : KeyedSet key} {k : κ} {x : α} :
    x ∈ s.erase k ↔ x ∈ s ∧ key x ≠ k := by
  simp [mem_iff, erase]

/-- Nothing is removed where nothing is found. -/
theorem erase_eq_self {s : KeyedSet key} {k : κ} (h : s.find? k = none) : s.erase k = s := by
  apply ext_mem
  intro x
  rw [mem_erase]
  exact and_iff_left_of_imp (find?_eq_none_iff.mp h x)

@[simp] theorem mem_put {s : KeyedSet key} {x y : α} :
    y ∈ s.put x ↔ y = x ∨ y ∈ s ∧ key y ≠ key x := by
  have hsplit : (y ∈ s ∧ key y < key x) ∨ (y ∈ s ∧ key x < key y) ↔ y ∈ s ∧ key y ≠ key x := by
    rw [← and_or_left, ← ne_iff_lt_or_gt]
  simp only [mem_iff, put, List.mem_append, List.mem_cons, List.mem_filter, decide_eq_true_eq]
  rw [or_left_comm]
  exact or_congr_right hsplit

/-- Sets in which the same is found have the same elements with a key. -/
theorem find?_congr {s s' : KeyedSet key} {k : κ}
    (h : ∀ x, key x = k → (x ∈ s ↔ x ∈ s')) : s.find? k = s'.find? k := by
  apply Option.ext
  intro x
  rw [find?_eq_some_iff, find?_eq_some_iff]
  exact and_congr_left (h x)

theorem find?_erase (s : KeyedSet key) (k j : κ) :
    (s.erase k).find? j = if j = k then none else s.find? j := by
  split
  next hj => exact find?_eq_none_iff.mpr fun x hx => by simpa [hj] using (mem_erase.mp hx).2
  next hj =>
    apply find?_congr
    rintro x rfl
    simp [hj]

theorem find?_put (s : KeyedSet key) (x : α) (j : κ) :
    (s.put x).find? j = if j = key x then some x else s.find? j := by
  split
  next hj => exact find?_eq_some_iff.mpr ⟨mem_put.mpr (Or.inl rfl), hj.symm⟩
  next hj =>
    apply find?_congr
    rintro y rfl
    have hne : y ≠ x := fun heq => hj (congrArg key heq)
    simp [hj, hne]

/-- An element that is inserted after the one with its key has been removed. -/
theorem insert?_erase (s : KeyedSet key) (x : α) : (s.erase (key x)).insert? x = some (s.put x) := by
  have hnone : (s.erase (key x)).find? (key x) = none :=
    find?_eq_none_iff.mpr fun y hy => (mem_erase.mp hy).2
  unfold insert?
  rw [hnone]
  refine congrArg some (ext_mem fun y => ?_)
  simp only [mem_put, mem_erase, and_assoc, and_self]

end KeyedSet
