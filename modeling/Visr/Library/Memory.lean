import Mathlib.Data.Option.Basic
import Visr.Library.OrderedMap

/-!
# Objects in memory

Objects live in cells of a memory, and a container is a map from keys to the addresses of the cells
it owns.  Different containers may share one memory.

## Main definitions

* `Memory` — the cells, with `Memory.new`, `Memory.write` and `Memory.delete`.
* `Memory.Represents` — the values that a container owns.
* `Memory.replace` — a container takes over a cell and deletes the one that had the key.
* `Memory.Foreign` — a cell that does not belong to a container.

## Main results

* `Memory.Represents.replace` — **what a container owns after taking over a cell**.
* `Memory.Represents.of_keeps` — it does not matter what happens to other cells.
* `Memory.Foreign.replace` — cells of others are left alone.
-/

/-- The cells by their addresses.  The addresses from `next` on have never been used. -/
structure Memory (α : Type*) where
  cells : ℕ → Option α
  next : ℕ
  fresh : ∀ a, next ≤ a → cells a = none

namespace Memory

variable {α : Type*}

def empty : Memory α := ⟨fun _ => none, 0, fun _ _ => rfl⟩

/-- A new cell, whose address is `m.next`. -/
def new (m : Memory α) (x : α) : Memory α where
  cells a := if a = m.next then some x else m.cells a
  next := m.next + 1
  fresh a ha := by
    rw [if_neg (by omega)]
    exact m.fresh a (by omega)

/-- Another value for a cell. -/
def write (m : Memory α) (a : ℕ) (x : α) : Memory α where
  cells b := if b = a then (m.cells a).map fun _ => x else m.cells b
  next := m.next
  fresh b hb := by
    split
    next h => rw [← h, m.fresh b hb, Option.map_none]
    next => exact m.fresh b hb

def delete (m : Memory α) (a : ℕ) : Memory α where
  cells b := if b = a then none else m.cells b
  next := m.next
  fresh b hb := by
    split
    · rfl
    · exact m.fresh b hb

def deleteAll (m : Memory α) (addresses : List ℕ) : Memory α := addresses.foldl delete m

theorem lt_next {m : Memory α} {a : ℕ} {x : α} (h : m.cells a = some x) : a < m.next := by
  by_contra hle
  rw [m.fresh a (Nat.not_lt.mp hle)] at h
  cases h

@[simp] theorem cells_new_self (m : Memory α) (x : α) : (m.new x).cells m.next = some x :=
  if_pos rfl

theorem cells_new_of_ne {m : Memory α} {x : α} {a : ℕ} (h : a ≠ m.next) :
    (m.new x).cells a = m.cells a := if_neg h

theorem cells_write_of_ne {m : Memory α} {x : α} {a b : ℕ} (h : b ≠ a) :
    (m.write a x).cells b = m.cells b := if_neg h

theorem cells_write_self {m : Memory α} {x y : α} {a : ℕ} (h : m.cells a = some y) :
    (m.write a x).cells a = some x := by
  show (if a = a then _ else _) = _
  rw [if_pos rfl, h, Option.map_some]

theorem cells_delete_of_ne {m : Memory α} {a b : ℕ} (h : b ≠ a) :
    (m.delete a).cells b = m.cells b := if_neg h

theorem cells_deleteAll_of_not_mem {m : Memory α} {a : ℕ} {addresses : List ℕ}
    (h : a ∉ addresses) : (m.deleteAll addresses).cells a = m.cells a := by
  induction addresses generalizing m with
  | nil => rfl
  | cons b addresses ih =>
    rw [List.mem_cons, not_or] at h
    exact (ih h.2).trans (cells_delete_of_ne h.1)

/-! ### Cells that are kept -/

/-- All cells are still there, with the same values. -/
def Keeps (m m' : Memory α) : Prop := ∀ a x, m.cells a = some x → m'.cells a = some x

theorem keeps_new (m : Memory α) (x : α) : Keeps m (m.new x) := by
  intro a y h
  rw [cells_new_of_ne (Nat.ne_of_lt (lt_next h))]
  exact h

/-- **A cell that comes and goes** leaves no trace in the others. -/
theorem keeps_delete_write_new (m : Memory α) (x y : α) :
    Keeps m (((m.new x).write m.next y).delete m.next) := by
  intro a z h
  have hne : a ≠ m.next := Nat.ne_of_lt (lt_next h)
  rw [cells_delete_of_ne hne, cells_write_of_ne hne, cells_new_of_ne hne]
  exact h

/-! ### Containers -/

variable {κ : Type*} [LinearOrder κ]

/-- The values that a container owns.  No two keys share a cell. -/
structure Represents (m : Memory α) (p : OrderedMap κ ℕ) (v : OrderedMap κ α) : Prop where
  find? : ∀ k, v.find? k = (p.find? k).bind m.cells
  allocated : ∀ k a, p.find? k = some a → ∃ x, m.cells a = some x
  injective : ∀ k k' a, p.find? k = some a → p.find? k' = some a → k = k'

theorem represents_empty (m : Memory α) :
    m.Represents (OrderedMap.empty : OrderedMap κ ℕ) OrderedMap.empty where
  find? _ := rfl
  allocated _ _ h := nomatch h
  injective _ _ _ h := nomatch h

variable {m m' : Memory α} {p : OrderedMap κ ℕ} {v : OrderedMap κ α}

/-- **Only the cells of the container matter.** -/
theorem Represents.of_cells (h : m.Represents p v)
    (hcells : ∀ k a, p.find? k = some a → m'.cells a = m.cells a) : m'.Represents p v where
  find? k := by
    rw [h.find?]
    cases hk : p.find? k with
    | none => rfl
    | some a => exact (hcells k a hk).symm
  allocated k a ha := by
    rw [hcells k a ha]
    exact h.allocated k a ha
  injective := h.injective

theorem Represents.of_keeps (h : m.Represents p v) (hkeeps : Keeps m m') : m'.Represents p v := by
  apply h.of_cells
  intro k a ha
  obtain ⟨x, hx⟩ := h.allocated k a ha
  rw [hx, hkeeps a x hx]

/-- The container takes over a cell, and the one that had the key is deleted. -/
def replace (m : Memory α) (p : OrderedMap κ ℕ) (k : κ) (a : ℕ) : Memory α × OrderedMap κ ℕ :=
  match p.find? k with
  | some old => (m.delete old, (p.erase k).insert k a)
  | none => (m, p.insert k a)

theorem find?_replace (m : Memory α) (p : OrderedMap κ ℕ) (k : κ) (a : ℕ) (j : κ) :
    (m.replace p k a).2.find? j = if j = k then some a else p.find? j := by
  unfold replace
  cases hk : p.find? k with
  | none => exact OrderedMap.find?_insert a hk j
  | some old => exact OrderedMap.find?_set p k a j

/-- Only the cell that had the key is deleted. -/
theorem cells_replace_of_ne {k : κ} {a b : ℕ} (h : p.find? k ≠ some b) :
    (m.replace p k a).1.cells b = m.cells b := by
  unfold replace
  cases hk : p.find? k with
  | none => rfl
  | some old =>
    apply cells_delete_of_ne
    rintro rfl
    exact h hk

/-- **What a container owns after taking over a cell.** -/
theorem Represents.replace (h : m.Represents p v) {k : κ} {a : ℕ} {x : α}
    (hx : m.cells a = some x) (ha : ∀ j, p.find? j ≠ some a) :
    (m.replace p k a).1.Represents (m.replace p k a).2 (v.set k x) := by
  -- the cell that is released is that of the key, so neither the new cell nor those of other keys
  -- are touched
  have hself : (m.replace p k a).1.cells a = some x := (cells_replace_of_ne (ha k)).trans hx
  have hother : ∀ {j b}, j ≠ k → p.find? j = some b → (m.replace p k a).1.cells b = m.cells b := by
    intro j b hj hb
    apply cells_replace_of_ne
    intro hk
    exact hj (h.injective j k b hb hk)
  refine ⟨?_, ?_, ?_⟩
  · intro j
    rw [OrderedMap.find?_set, find?_replace]
    by_cases hj : j = k
    · rw [if_pos hj, if_pos hj, Option.bind_some, hself]
    · rw [if_neg hj, if_neg hj, h.find?]
      cases hb : p.find? j with
      | none => rfl
      | some b => exact (hother hj hb).symm
  · intro j b hb
    rw [find?_replace] at hb
    by_cases hj : j = k
    · rw [if_pos hj] at hb
      cases hb
      exact ⟨x, hself⟩
    · rw [if_neg hj] at hb
      rw [hother hj hb]
      exact h.allocated j b hb
  · intro j j' b hb hb'
    rw [find?_replace] at hb hb'
    by_cases hj : j = k
    · rw [if_pos hj] at hb
      cases hb
      by_cases hj' : j' = k
      · rw [hj, hj']
      · rw [if_neg hj'] at hb'
        exact absurd hb' (ha j')
    · rw [if_neg hj] at hb
      by_cases hj' : j' = k
      · rw [if_pos hj'] at hb'
        cases hb'
        exact absurd hb (ha j)
      · rw [if_neg hj'] at hb'
        exact h.injective j j' b hb hb'

/-! ### Cells of others -/

/-- A cell with a value that does not belong to the container. -/
structure Foreign (m : Memory α) (p : OrderedMap κ ℕ) (a : ℕ) (x : α) : Prop where
  cell : m.cells a = some x
  not_owned : ∀ k, p.find? k ≠ some a

theorem Foreign.of_keeps {a : ℕ} {x : α} (h : m.Foreign p a x) (hkeeps : Keeps m m') :
    m'.Foreign p a x := ⟨hkeeps a x h.cell, h.not_owned⟩

/-- **Cells of others are left alone** when a container takes over a cell. -/
theorem Foreign.replace {a b : ℕ} {x : α} (h : m.Foreign p b x) {k : κ} (hne : b ≠ a) :
    (m.replace p k a).1.Foreign (m.replace p k a).2 b x where
  cell := (cells_replace_of_ne (h.not_owned k)).trans h.cell
  not_owned j := by
    rw [find?_replace]
    by_cases hj : j = k
    · rw [if_pos hj]
      intro heq
      exact hne (Option.some.inj heq).symm
    · rw [if_neg hj]
      exact h.not_owned j

/-- The cells of others are still there after those of the container have been deleted. -/
theorem Foreign.cells_deleteAll {a : ℕ} {x : α} (h : m.Foreign p a x) :
    (m.deleteAll p.values).cells a = some x := by
  rw [cells_deleteAll_of_not_mem, h.cell]
  intro hmem
  obtain ⟨⟨k, a'⟩, hentry, rfl⟩ := List.mem_map.mp hmem
  exact h.not_owned k (OrderedMap.find?_of_mem hentry)

end Memory
