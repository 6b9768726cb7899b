import Mathlib.Data.List.Nodup
import Mathlib.Data.List.Perm.Basic
import Mathlib.Order.Lattice

/-!
# Ordered maps

A finite map as the list of its entries in the order of the keys, as it is seen by
iterating over a search tree.

## Main definitions

* `OrderedMap κ α` — entries with increasing keys.
* `OrderedMap.find?`, `OrderedMap.insert`, `OrderedMap.erase`, `OrderedMap.set` — the operations.
* `OrderedMap.first` — the first entry whose key meets a condition.

## Main results

* `find?_insert`, `find?_erase`, `find?_set` — what the operations do to the entries.
* `values_insert_perm`, `values_erase_perm` — what they do to the values.
* `ext_find?` — a map is determined by its lookups.
-/

/-- The entries of a map, with strictly increasing keys. -/
structure OrderedMap (κ α : Type*) [LinearOrder κ] where
  entries : List (κ × α)
  sorted : (entries.map Prod.fst).Pairwise (· < ·)

namespace OrderedMap

variable {κ α : Type*} [LinearOrder κ]

instance [DecidableEq κ] [DecidableEq α] : DecidableEq (OrderedMap κ α) := fun m m' =>
  decidable_of_iff (m.entries = m'.entries) <| by
    cases m
    cases m'
    simp

def empty : OrderedMap κ α := ⟨[], List.Pairwise.nil⟩

/-- The value for a key. -/
def find? (m : OrderedMap κ α) (k : κ) : Option α :=
  (m.entries.find? fun e => e.1 = k).map Prod.snd

/-- The values in the order of the keys. -/
def values (m : OrderedMap κ α) : List α := m.entries.map Prod.snd

/-- The keys in their order. -/
def keys (m : OrderedMap κ α) : List κ := m.entries.map Prod.fst

/-- The key of the first entry that meets a condition. -/
def first (m : OrderedMap κ α) (q : κ → Bool) : Option κ := m.keys.find? q

theorem nodup_keys (m : OrderedMap κ α) : m.keys.Nodup := m.sorted.imp ne_of_lt

theorem nodup_entries (m : OrderedMap κ α) : m.entries.Nodup :=
  List.Nodup.of_map Prod.fst m.nodup_keys

/-! ### Lookup -/

theorem mem_of_find? {m : OrderedMap κ α} {k : κ} {a : α} (h : m.find? k = some a) :
    (k, a) ∈ m.entries := by
  obtain ⟨⟨k', a'⟩, hfind, rfl⟩ := Option.map_eq_some_iff.mp h
  have hk : k' = k := by simpa using List.find?_some hfind
  rw [← hk]
  exact List.mem_of_find?_eq_some hfind

theorem eq_of_mem {m : OrderedMap κ α} {k : κ} {a a' : α} (h : (k, a) ∈ m.entries)
    (h' : (k, a') ∈ m.entries) : a = a' := by
  have heq := List.inj_on_of_nodup_map m.nodup_keys h h' rfl
  exact congrArg Prod.snd heq

theorem find?_of_mem {m : OrderedMap κ α} {k : κ} {a : α} (h : (k, a) ∈ m.entries) :
    m.find? k = some a := by
  rcases hfind : m.find? k with _ | a'
  · have hnone := List.find?_eq_none.mp (Option.map_eq_none_iff.mp hfind) (k, a) h
    simp at hnone
  · rw [eq_of_mem (mem_of_find? hfind) h]

theorem find?_eq_some_iff {m : OrderedMap κ α} {k : κ} {a : α} :
    m.find? k = some a ↔ (k, a) ∈ m.entries :=
  ⟨mem_of_find?, find?_of_mem⟩

theorem mem_keys {m : OrderedMap κ α} {k : κ} : k ∈ m.keys ↔ ∃ a, m.find? k = some a := by
  simp only [find?_eq_some_iff, keys, List.mem_map, Prod.exists, exists_and_right, exists_eq_right]

theorem find?_eq_none_iff {m : OrderedMap κ α} {k : κ} : m.find? k = none ↔ k ∉ m.keys := by
  rw [mem_keys, Option.eq_none_iff_forall_ne_some]
  exact not_exists.symm

/-- A map is determined by its lookups. -/
theorem ext_find? {m m' : OrderedMap κ α} (h : ∀ k, m.find? k = m'.find? k) : m = m' := by
  have hmem : ∀ e, e ∈ m.entries ↔ e ∈ m'.entries := by
    rintro ⟨k, a⟩
    rw [← find?_eq_some_iff, ← find?_eq_some_iff, h k]
  have hperm : m.entries.Perm m'.entries :=
    (List.perm_ext_iff_of_nodup (nodup_entries m) (nodup_entries m')).mpr hmem
  have heq : m.entries = m'.entries := by
    refine hperm.eq_of_pairwise ?_ (List.pairwise_map.mp m.sorted) (List.pairwise_map.mp m'.sorted)
    intro a b _ _ hab hba
    exact absurd hba (lt_asymm hab)
  cases m
  cases m'
  subst heq
  rfl

@[simp] theorem find?_empty (k : κ) : (empty : OrderedMap κ α).find? k = none := rfl

@[simp] theorem keys_empty : (empty : OrderedMap κ α).keys = [] := rfl

@[simp] theorem values_empty : (empty : OrderedMap κ α).values = [] := rfl

theorem length_keys (m : OrderedMap κ α) : m.keys.length = m.values.length := by
  simp [keys, values]

/-! ### Insertion -/

/-- Inserts an entry before the first one with a greater key, unless the key is there. -/
def insertEntry (k : κ) (a : α) : List (κ × α) → List (κ × α)
  | [] => [(k, a)]
  | (k', a') :: l =>
    if k < k' then (k, a) :: (k', a') :: l
    else if k = k' then (k', a') :: l
    else (k', a') :: insertEntry k a l

theorem mem_insertEntry {k : κ} {a : α} {l : List (κ × α)} {e : κ × α}
    (h : e ∈ insertEntry k a l) : e = (k, a) ∨ e ∈ l := by
  induction l with
  | nil =>
    left
    simpa [insertEntry] using h
  | cons e' l ih =>
    unfold insertEntry at h
    split at h
    · simpa using h
    · split at h
      · exact Or.inr h
      · rcases List.mem_cons.mp h with rfl | h
        · exact Or.inr List.mem_cons_self
        · exact (ih h).imp_right (List.mem_cons_of_mem _)

theorem pairwise_insertEntry {k : κ} {a : α} {l : List (κ × α)}
    (h : l.Pairwise fun e e' => e.1 < e'.1) :
    (insertEntry k a l).Pairwise fun e e' => e.1 < e'.1 := by
  induction l with
  | nil => exact List.pairwise_singleton _ _
  | cons e' l ih =>
    obtain ⟨hfirst, hrest⟩ := List.pairwise_cons.mp h
    unfold insertEntry
    split
    next hlt =>
      refine List.pairwise_cons.mpr ⟨fun e he => ?_, h⟩
      rcases List.mem_cons.mp he with rfl | he
      · exact hlt
      · exact lt_trans hlt (hfirst e he)
    next hge =>
      split
      · exact h
      next hne =>
        refine List.pairwise_cons.mpr ⟨fun e he => ?_, ih hrest⟩
        rcases mem_insertEntry he with rfl | he
        · exact lt_of_le_of_ne (not_lt.mp hge) (Ne.symm hne)
        · exact hfirst e he

/-- Inserts an entry, unless there is one with its key. -/
def insert (m : OrderedMap κ α) (k : κ) (a : α) : OrderedMap κ α where
  entries := insertEntry k a m.entries
  sorted := List.pairwise_map.mpr (pairwise_insertEntry (List.pairwise_map.mp m.sorted))

theorem insertEntry_perm {k : κ} {a : α} {l : List (κ × α)} (h : k ∉ l.map Prod.fst) :
    (insertEntry k a l).Perm ((k, a) :: l) := by
  induction l with
  | nil => exact List.Perm.refl _
  | cons e' l ih =>
    rw [List.map_cons, List.mem_cons, not_or] at h
    unfold insertEntry
    split
    · exact List.Perm.refl _
    · rw [if_neg h.1]
      exact ((ih h.2).cons _).trans (List.Perm.swap (k, a) e' l)

theorem insert_perm {m : OrderedMap κ α} {k : κ} {a : α} (h : m.find? k = none) :
    (m.insert k a).entries.Perm ((k, a) :: m.entries) :=
  insertEntry_perm (find?_eq_none_iff.mp h)

theorem find?_insert {m : OrderedMap κ α} {k : κ} (a : α) (h : m.find? k = none) (j : κ) :
    (m.insert k a).find? j = if j = k then some a else m.find? j := by
  have hmem : ∀ b, (m.insert k a).find? j = some b ↔ (j, b) = (k, a) ∨ m.find? j = some b := by
    intro b
    rw [find?_eq_some_iff, (insert_perm h).mem_iff, List.mem_cons, find?_eq_some_iff]
  by_cases hj : j = k
  · subst hj
    rw [if_pos rfl, hmem]
    exact Or.inl rfl
  · rw [if_neg hj]
    have hne : ∀ b, (j, b) ≠ (k, a) := fun b hb => hj (congrArg Prod.fst hb)
    refine Option.ext fun b => ?_
    rw [hmem, or_iff_right (hne b)]

theorem values_insert_perm {m : OrderedMap κ α} {k : κ} (a : α) (h : m.find? k = none) :
    (m.insert k a).values.Perm (a :: m.values) :=
  (insert_perm h).map Prod.snd

theorem keys_insert_perm {m : OrderedMap κ α} {k : κ} (a : α) (h : m.find? k = none) :
    (m.insert k a).keys.Perm (k :: m.keys) :=
  (insert_perm h).map Prod.fst

/-! ### Removal -/

/-- Removes the entry of a key, if there is one. -/
def erase (m : OrderedMap κ α) (k : κ) : OrderedMap κ α where
  entries := m.entries.filter fun e => e.1 ≠ k
  sorted := m.sorted.sublist (List.filter_sublist.map Prod.fst)

theorem find?_erase (m : OrderedMap κ α) (k j : κ) :
    (m.erase k).find? j = if j = k then none else m.find? j := by
  refine Option.ext fun b => ?_
  rw [find?_eq_some_iff, erase, List.mem_filter]
  by_cases hj : j = k
  · simp [hj]
  · simp [hj, find?_eq_some_iff]

/-- Replaces the value for a key, or inserts an entry. -/
def set (m : OrderedMap κ α) (k : κ) (a : α) : OrderedMap κ α := (m.erase k).insert k a

theorem find?_set (m : OrderedMap κ α) (k : κ) (a : α) (j : κ) :
    (m.set k a).find? j = if j = k then some a else m.find? j := by
  have hnone : (m.erase k).find? k = none := by rw [find?_erase, if_pos rfl]
  unfold set
  rw [find?_insert a hnone, find?_erase]
  by_cases hj : j = k
  · rw [if_pos hj, if_pos hj]
  · rw [if_neg hj, if_neg hj, if_neg hj]

theorem values_erase_perm {m : OrderedMap κ α} {k : κ} {a : α} (h : m.find? k = some a) :
    m.values.Perm (a :: (m.erase k).values) := by
  have hsplit : m.entries.Perm
      (m.entries.filter (fun e => e.1 = k) ++ m.entries.filter fun e => ¬e.1 = k) := by
    have hperm := List.filter_append_perm (fun e : κ × α => decide (e.1 = k)) m.entries
    simpa using hperm.symm
  have hone : m.entries.filter (fun e => e.1 = k) = [(k, a)] := by
    refine List.perm_singleton.mp ((List.perm_ext_iff_of_nodup ?_ ?_).mpr ?_)
    · exact (nodup_entries m).filter _
    · exact List.nodup_singleton _
    · rintro ⟨k', a'⟩
      rw [List.mem_filter, List.mem_singleton, Prod.mk.injEq, decide_eq_true_eq]
      constructor
      · rintro ⟨hmem, rfl⟩
        exact ⟨rfl, eq_of_mem hmem (mem_of_find? h)⟩
      · rintro ⟨rfl, rfl⟩
        exact ⟨mem_of_find? h, rfl⟩
  rw [hone] at hsplit
  have hvalues := hsplit.map Prod.snd
  simpa [values, erase] using hvalues

/-! ### The first entry with a property -/

theorem first_congr {m : OrderedMap κ α} {q q' : κ → Bool} (h : ∀ k ∈ m.keys, q k = q' k) :
    m.first q = m.first q' := by
  unfold first
  revert h
  induction m.keys with
  | nil => exact fun _ => rfl
  | cons k keys ih =>
    intro h
    obtain ⟨hk, hkeys⟩ := List.forall_mem_cons.mp h
    rw [List.find?_cons, List.find?_cons, hk, ih hkeys]

theorem first_eq_none {m : OrderedMap κ α} {q : κ → Bool} :
    m.first q = none ↔ ∀ k ∈ m.keys, q k = false := by
  unfold first
  rw [List.find?_eq_none]
  simp

/-- The first key with a property is the least one. -/
theorem first_eq_some {m : OrderedMap κ α} {q : κ → Bool} {k : κ} :
    m.first q = some k ↔ k ∈ m.keys ∧ q k = true ∧ ∀ j ∈ m.keys, q j = true → k ≤ j := by
  unfold first
  have hsorted : m.keys.Pairwise (· < ·) := m.sorted
  revert hsorted
  -- the keys that come later are greater
  induction m.keys with
  | nil => simp
  | cons k' keys ih =>
    intro hsorted
    obtain ⟨hfirst, hrest⟩ := List.pairwise_cons.mp hsorted
    rw [List.find?_cons]
    rcases hq : q k' with _ | _
    · refine (ih hrest).trans ?_
      have hne : q k = true → k ≠ k' := by
        rintro h rfl
        rw [hq] at h
        exact Bool.false_ne_true h
      simp only [List.mem_cons, forall_eq_or_imp, hq, Bool.false_eq_true, false_imp_iff, true_and]
      constructor
      · rintro ⟨hmem, hk, hmin⟩
        exact ⟨Or.inr hmem, hk, hmin⟩
      · rintro ⟨hmem, hk, hmin⟩
        exact ⟨hmem.resolve_left (hne hk), hk, hmin⟩
    · simp only [Option.some.injEq, List.mem_cons, forall_eq_or_imp]
      constructor
      · rintro rfl
        exact ⟨Or.inl rfl, hq, fun _ => le_refl _, fun j hj _ => le_of_lt (hfirst j hj)⟩
      · rintro ⟨hmem, -, hle, -⟩
        rcases hmem with rfl | hmem
        · rfl
        · exact absurd (hle hq) (not_le.mpr (hfirst k hmem))

end OrderedMap
