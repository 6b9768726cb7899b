import Mathlib.Algebra.BigOperators.Group.List.Basic
import Mathlib.Algebra.Order.Ring.Nat
import Mathlib.Data.List.Nodup
import Mathlib.Tactic.Linarith

/-!
# Slices of a memory

Slices of a memory that are given by their address and their size, and tables of slices that are
placed one after the other.

## Main definitions

* `load`, `store` — the contents of a slice.
* `Packed width table total` — the entries of a table are slices of the first `total` places, which
  they fill without an overlap.

## Main results

* `load_store_same`, `load_store_apart` — what a slice contains after another one has been written.
* `Packed.append` — an entry for the places behind the last slice.
* `Packed.apart` — **different places of the table are different places of the memory**.
-/

namespace Slices

variable {β κ : Type*}

/-! ### Contents -/

/-- The contents of a slice. -/
def load (m : ℕ → β) (address size : ℕ) : List β := (List.range size).map fun k => m (address + k)

/-- Writes to a slice. -/
def store (m : ℕ → β) (address : ℕ) (bytes : List β) : ℕ → β := fun a =>
  if address ≤ a then (bytes[a - address]?).getD (m a) else m a

@[simp] theorem length_load (m : ℕ → β) (address size : ℕ) :
    (load m address size).length = size := by
  rw [load, List.length_map, List.length_range]

theorem getElem_load (m : ℕ → β) (address size : ℕ) {k : ℕ} (hk : k < (load m address size).length) :
    (load m address size)[k] = m (address + k) := by
  simp [load]

/-- Two slices have no place in common. -/
def Apart (address size address' size' : ℕ) : Prop :=
  address + size ≤ address' ∨ address' + size' ≤ address

theorem Apart.mono {address size address' size' n n' : ℕ} (h : Apart address size address' size')
    (hn : n ≤ size) (hn' : n' ≤ size') : Apart address n address' n' := by
  rcases h with h | h
  · exact Or.inl (by omega)
  · exact Or.inr (by omega)

theorem load_store_same (m : ℕ → β) (address : ℕ) {bytes : List β} {size : ℕ}
    (h : bytes.length = size) : load (store m address bytes) address size = bytes := by
  refine List.ext_getElem (by rw [length_load, h]) fun k hk hk' => ?_
  rw [getElem_load, store, if_pos (Nat.le_add_right _ _), Nat.add_sub_cancel_left,
    List.getElem?_eq_getElem hk', Option.getD_some]

theorem store_of_apart (m : ℕ → β) {address address' : ℕ} {bytes : List β} {a : ℕ}
    (h : Apart address 1 address' bytes.length) (ha : a = address) :
    store m address' bytes a = m a := by
  subst ha
  unfold store
  split
  next hle =>
    rcases h with h | h
    · exact absurd h (by omega)
    · rw [List.getElem?_eq_none (by omega), Option.getD_none]
  next => rfl

theorem load_store_apart (m : ℕ → β) {address size address' : ℕ} {bytes : List β}
    (h : Apart address size address' bytes.length) :
    load (store m address' bytes) address size = load m address size := by
  unfold load
  refine List.map_congr_left fun k hk => ?_
  have hk := List.mem_range.mp hk
  refine store_of_apart m ?_ rfl
  rcases h with h | h
  · exact Or.inl (by omega)
  · exact Or.inr (by omega)

/-! ### Tables -/

/-- The slices of a table fill the first `total` places. -/
structure Packed (width : κ → ℕ) (table : List (κ × ℕ)) (total : ℕ) : Prop where
  nodup : (table.map Prod.fst).Nodup
  within : ∀ e ∈ table, e.2 + width e.1 ≤ total
  disjoint : ∀ e ∈ table, ∀ e' ∈ table, e.1 ≠ e'.1 → Apart e.2 (width e.1) e'.2 (width e'.1)
  covered : ∀ i < total, ∃ e ∈ table, e.2 ≤ i ∧ i < e.2 + width e.1
  total_eq : (table.map fun e => width e.1).sum = total

variable {width : κ → ℕ} {table : List (κ × ℕ)} {total : ℕ}

theorem packed_nil (width : κ → ℕ) : Packed width [] 0 where
  nodup := List.nodup_nil
  within _ h := absurd h List.not_mem_nil
  disjoint _ h := absurd h List.not_mem_nil
  covered _ h := absurd h (Nat.not_lt_zero _)
  total_eq := rfl

theorem Packed.of_perm {table' : List (κ × ℕ)} (h : Packed width table total)
    (hperm : table'.Perm table) : Packed width table' total where
  nodup := (hperm.map Prod.fst).nodup_iff.mpr h.nodup
  within e he := h.within e (hperm.mem_iff.mp he)
  disjoint e he e' he' := h.disjoint e (hperm.mem_iff.mp he) e' (hperm.mem_iff.mp he')
  covered i hi := by
    obtain ⟨e, he, hei⟩ := h.covered i hi
    exact ⟨e, hperm.mem_iff.mpr he, hei⟩
  total_eq := (hperm.map _).sum_eq.trans h.total_eq

/-- An entry for the places behind the last slice. -/
theorem Packed.append (h : Packed width table total) {k : κ} (hk : k ∉ table.map Prod.fst) :
    Packed width ((k, total) :: table) (total + width k) where
  nodup := by
    rw [List.map_cons, List.nodup_cons]
    exact ⟨hk, h.nodup⟩
  within := by
    refine List.forall_mem_cons.mpr ⟨le_rfl, fun e he => ?_⟩
    exact (h.within e he).trans (Nat.le_add_right _ _)
  disjoint := by
    intro e he e' he' hne
    rcases List.mem_cons.mp he with rfl | he
    · rcases List.mem_cons.mp he' with rfl | he'
      · exact absurd rfl hne
      · exact Or.inr (h.within e' he')
    · rcases List.mem_cons.mp he' with rfl | he'
      · exact Or.inl (h.within e he)
      · exact h.disjoint e he e' he' hne
  covered i hi := by
    by_cases hlt : i < total
    · obtain ⟨e, he, hei⟩ := h.covered i hlt
      exact ⟨e, List.mem_cons_of_mem _ he, hei⟩
    · exact ⟨(k, total), List.mem_cons_self, Nat.not_lt.mp hlt, hi⟩
  total_eq := by
    rw [List.map_cons, List.sum_cons, h.total_eq, Nat.add_comm]

/-- The offset of an entry is unique. -/
theorem Packed.offset_unique (h : Packed width table total) {k : κ} {o o' : ℕ}
    (ho : (k, o) ∈ table) (ho' : (k, o') ∈ table) : o = o' :=
  congrArg Prod.snd (List.inj_on_of_nodup_map h.nodup ho ho' rfl)

/-- **Different places of the table** are different places of the memory, and lie within it. -/
theorem Packed.apart (h : Packed width table total) {k k' : κ} {o o' i i' : ℕ}
    (ho : (k, o) ∈ table) (ho' : (k', o') ∈ table) (hi : i < width k) (hi' : i' < width k')
    (heq : o + i = o' + i') : k = k' ∧ i = i' := by
  by_cases hk : k = k'
  · subst hk
    have := h.offset_unique ho ho'
    exact ⟨rfl, by omega⟩
  · have hdisjoint : Apart o (width k) o' (width k') := h.disjoint _ ho _ ho' hk
    rcases hdisjoint with hle | hle
    · omega
    · omega

/-- Slices of places of the same size. -/
theorem apart_mul (base : ℕ) {size n n' length : ℕ} (hlength : length ≤ size) (h : n ≠ n') :
    Apart (base + size * n) length (base + size * n') length := by
  rcases Nat.lt_or_gt_of_ne h with hlt | hlt
  · left
    have := Nat.mul_le_mul_left size hlt
    rw [Nat.mul_succ] at this
    omega
  · right
    have := Nat.mul_le_mul_left size hlt
    rw [Nat.mul_succ] at this
    omega

end Slices
